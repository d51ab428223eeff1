import Genjishimada.Tournaments.Drain
import Genjishimada.Tournaments.Editions

/-!
# The publication of an edition

The cron closes editions, the poller announces and publishes them, admins force
them, and verdicts and submissions change what is in verification.  Each of these is
one transaction, and publishing never fails here.

What a run puts out about one edition is at most a start-only rollover followed by
its results, once, in the step that completes it.  The proof follows a single edition
through its stages: `Advance` lists the moves, every step is one of them, and a run
of them is read off in the end.
-/

namespace Genjishimada.Tournaments

open Library Sdk Repository Migrations Services

/-! ## The machine -/

/-- How the results of an edition come out. -/
inductive ResultsKind where
  /-- In one rollover together with the start of the next edition. -/
  | combined
  /-- In an `edition_results` row of their own. -/
  | deferred
deriving DecidableEq, Repr

/-- What a step puts out about an edition. -/
inductive Output where
  | start (editionId : Nat)
  | results (editionId : Nat) (kind : ResultsKind)
deriving DecidableEq, Repr

def Output.editionId : Output → Nat
  | start editionId | results editionId _ => editionId

inductive PublicationLabel where
  | transition (lockFree : Bool) (now : Int) (random : Nat → Shuffle CoreMap)
  | tick (now : Int) (lockedEditions lockedTransitions : Nat → Bool)
  | force (now : Int) (locked : Nat → Bool)
  | verdict (tournamentCompletionId : Nat) (verified : Bool)
  | submit (cycleId userId mapId : Nat) (time : Int) (screenshot : String) (video : Option String)
      (now : Int)
  | bootstrap (zones : TimeZones) (now : Int) (random : Nat → Shuffle CoreMap)

/-- The poller publishes an edition by itself, or an admin makes it. -/
def PublicationLabel.Forced : PublicationLabel → Prop
  | force _ _ => True
  | _ => False

/-- The world after a step. -/
def publicationWorld (db : Db) : PublicationLabel → World Db Event
  | .transition lockFree now random => { db := processEditionTransitions lockFree now random db }
  | .tick now lockedEditions lockedTransitions =>
      final ((publishPendingTransitions now lockedEditions lockedTransitions : Tournament _) { db })
  | .force now locked => final (forcePublishResults now locked { db })
  | .verdict tc verified => { db := (verdictWrite tc verified verified db).2 }
  | .submit cycleId userId mapId time screenshot video now =>
      match createTournamentCompletion cycleId userId mapId time screenshot video now db with
      | .ok (_, db') => { db := db' }
      | .error _ => { db }
  | .bootstrap zones now random => final (bootstrapEdition zones now random { db })

/-- What a message of the poller puts out. -/
def sentOutput : Receipt → Option Output
  | .startOnly editionId => some (.start editionId)
  | .combined editionId => some (.results editionId .combined)
  | .row _ _ _ => none

/-- What a row of the outbox puts out, if it is new. -/
def rowOutput (nextId : Nat) (t : PendingTransition) : Option Output :=
  if nextId ≤ t.id then (deferredResults t).map fun editionId ↦ .results editionId .deferred
  else none

/-- What a step from `db` to the world `w` puts out. -/
def outputs (db : Db) (w : World Db Event) : List Output :=
  (w.receipts receipt).filterMap sentOutput ++
    w.db.pendingTransitions.rows.filterMap (rowOutput db.pendingTransitions.nextId)

/-- A step, labelled by what is done and by what it puts out. -/
def PublicationStep (db : Db) (l : PublicationLabel × List Output) (db' : Db) : Prop :=
  db' = (publicationWorld db l.1).db ∧ l.2 = outputs db (publicationWorld db l.1)

/-- Every row of the outbox decodes to its struct. -/
def Decodable (db : Db) : Prop := ∀ t ∈ db.pendingTransitions.rows, undecodable t = false

/-! ## The stages of an edition -/

/-- The status of an edition, and whether its start is announced. -/
def stage (x : Nat) (db : Db) : Option (EditionStatus × Bool) :=
  (db.editions.get? x).map fun e ↦ (e.status, e.startAnnounced)

/-- The moves of the edition `x`, with what each puts out. -/
inductive Advance (x : Nat) :
    Option (EditionStatus × Bool) → List Output → Option (EditionStatus × Bool) → Prop
  | stay (v : Option (EditionStatus × Bool)) : Advance x v [] v
  | opened : Advance x none [] (some (.active, false))
  | closed (a : Bool) : Advance x (some (.active, a)) [] (some (.awaitingResults, a))
  | announced :
      Advance x (some (.awaitingResults, false)) [.start x] (some (.awaitingResults, true))
  | published (a : Bool) (kind : ResultsKind) :
      Advance x (some (.awaitingResults, a)) [.results x kind] (some (.completed, a))

/-- What is put out about the edition `x`. -/
def about (x : Nat) (outs : List Output) : List Output := outs.filter fun o ↦ o.editionId = x

/-! ## What the steps put out -/

section Outputs

variable {db : Db} {x : Nat}

/-- The rows a step appends are the new ones. -/
theorem filterMap_rowOutput {rows new : List PendingTransition}
    (hrows : rows = db.pendingTransitions.rows ++ new)
    (hnew : ∀ t ∈ new, db.pendingTransitions.nextId ≤ t.id) :
    rows.filterMap (rowOutput db.pendingTransitions.nextId) =
      (new.map deferredResults).filterMap fun d ↦
        d.map fun editionId ↦ .results editionId .deferred := by
  have hold : db.pendingTransitions.rows.filterMap (rowOutput db.pendingTransitions.nextId) = [] := by
    refine List.filterMap_eq_nil_iff.mpr fun t ht ↦ if_neg ?_
    exact Nat.not_le.mpr (db.pendingTransitions.fresh t ht)
  rw [hrows, List.filterMap_append, hold, List.nil_append, List.filterMap_map]
  exact List.filterMap_congr fun t ht ↦ if_pos (hnew t ht)

/-- A step that sends nothing and adds no row puts out nothing. -/
theorem outputs_quiet {w : World Db Event} (hbroker : w.broker = [])
    (hrows : w.db.pendingTransitions = db.pendingTransitions) : outputs db w = [] := by
  rw [outputs, World.receipts, hbroker, hrows,
    filterMap_rowOutput (List.append_nil db.pendingTransitions.rows).symm (by simp)]
  rfl

end Outputs

/-! ## The tick -/

/-- What the drain of an edition sends. -/
def drainSent (db : Db) (e : Edition) : List Output := (editionSends db e).filterMap sentOutput

/-- What the drain of an edition stores. -/
def drainStored (db : Db) (e : Edition) : List Output :=
  if drains db e then [.results e.id .deferred] else []

section Tick

variable {now : Int} {db db' : Db} {es : List Edition} {e : Edition} {x : Nat}

theorem stage_completeEdition (editionId : Nat) :
    stage x (completeEdition editionId db) =
      if x = editionId then (stage x db).map fun v ↦ (.completed, v.2) else stage x db := by
  rw [stage, completeEdition, Table.get?_modify, stage]
  cases h : db.editions.get? x with
  | none => simp
  | some e =>
      have hid : e.id = x := Table.key_of_get? h
      by_cases hx : x = editionId <;> simp [hid, hx]

/-- The four branches of the drain are moves of the edition. -/
theorem DrainStep.advance (h : DrainStep now db e db') (he : e ∈ db.editions.rows)
    (hs : e.status = .awaitingResults) :
    Advance e.id (stage e.id db) (drainSent db e ++ drainStored db e) (stage e.id db') := by
  obtain ⟨db₁, hr, rfl⟩ := h
  have hget : db.editions.get? e.id = some e := Table.get?_of_mem he
  have hstage : stage e.id db = some (.awaitingResults, e.startAnnounced) := by
    rw [stage, hget, ← hs]
    rfl
  have hstage₁ : stage e.id db₁ = some (.awaitingResults, e.startAnnounced) := by
    rw [← hstage, stage, stage, hr.editions_eq]
  have hcount : countInflightVerifications e.id db₁ = countInflightVerifications e.id db :=
    countInflightVerifications_congr hr.completions_eq hr.cycles_eq e.id
  rcases drainEdition_cases now e db₁ with
    ⟨ha, hi, hd⟩ | ⟨ha, hi, hd⟩ | ⟨ha, hi, hd⟩ | ⟨ha, hi, hd⟩
  · have hafter : stage e.id (drainEdition now e db₁) = some (.awaitingResults, true) := by
      rw [hd, stage, markEditionStartAnnounced, Table.get?_modify, hr.editions_eq, hget]
      simp [hs]
    rw [hcount] at hi
    simp only [hstage, hafter, drainSent, drainStored, editionSends, drains, ha, hi]
    exact .announced
  · have hafter : stage e.id (drainEdition now e db₁) = some (.completed, false) := by
      rw [hd, stage_completeEdition, if_pos rfl, hstage₁, ha]
      rfl
    rw [hcount] at hi
    simp only [hstage, hafter, drainSent, drainStored, editionSends, drains, ha, hi]
    exact .published false .combined
  · have hafter : stage e.id (drainEdition now e db₁) = some (.completed, true) := by
      rw [hd, writeDrainedResultsRow, stage_completeEdition, if_pos rfl]
      change (stage e.id db₁).map _ = _
      rw [hstage₁, ha]
      rfl
    rw [hcount] at hi
    simp only [hstage, hafter, drainSent, drainStored, editionSends, drains, ha, hi]
    exact .published true .deferred
  · rw [hcount] at hi
    rw [hd, hstage₁, hstage]
    simp only [drainSent, drainStored, editionSends, drains, ha, hi.ne']
    exact .stay _

/-- What comes out of the drain of an edition, branch by branch. -/
theorem drain_cases (db : Db) (e : Edition) :
    drainSent db e ++ drainStored db e = [] ∨
    drainSent db e ++ drainStored db e = [.start e.id] ∨
    countInflightVerifications e.id db = 0 ∧
      ∃ kind, drainSent db e ++ drainStored db e = [.results e.id kind] := by
  cases ha : e.startAnnounced with
  | false =>
      rcases Nat.eq_zero_or_pos (countInflightVerifications e.id db) with hi | hi
      · exact .inr (.inr ⟨hi, .combined, by simp [drainSent, drainStored, editionSends, drains,
          sentOutput, ha, hi]⟩)
      · exact .inr (.inl (by simp [drainSent, drainStored, editionSends, drains, sentOutput, ha, hi]))
  | true =>
      rcases Nat.eq_zero_or_pos (countInflightVerifications e.id db) with hi | hi
      · exact .inr (.inr ⟨hi, .deferred, by simp [drainSent, drainStored, editionSends, drains,
          ha, hi]⟩)
      · exact .inl (by simp [drainSent, drainStored, editionSends, drains, ha, hi.ne'])

/-- Results come out of a drain only when nothing is in verification. -/
theorem inflight_of_drain {kind : ResultsKind}
    (h : .results x kind ∈ drainSent db e ++ drainStored db e) :
    countInflightVerifications e.id db = 0 := by
  rcases drain_cases db e with hnil | hstart | ⟨hi, _⟩
  · simp [hnil] at h
  · simp [hstart] at h
  · exact hi

/-- Everything that comes out of a drain is about its edition. -/
theorem editionId_of_drain {o : Output} (h : o ∈ drainSent db e ++ drainStored db e) :
    o.editionId = e.id := by
  rcases drain_cases db e with hnil | hstart | ⟨_, kind, hresults⟩
  · simp [hnil] at h
  · rw [hstart, List.mem_singleton] at h
    rw [h]
    rfl
  · rw [hresults, List.mem_singleton] at h
    rw [h]
    rfl

/-- The part of a list of outputs, listed by edition, that is about one of them. -/
theorem about_flatMap {g : Edition → List Output}
    (hg : ∀ e ∈ es, ∀ o ∈ g e, o.editionId = e.id) :
    about x (es.flatMap g) = (es.filter fun e ↦ e.id = x).flatMap g := by
  induction es with
  | nil => rfl
  | cons e es ih =>
      have hrest := ih fun e' he' ↦ hg e' (List.mem_cons_of_mem _ he')
      rw [about] at hrest ⊢
      rw [List.flatMap_cons, List.filter_append, hrest, List.filter_cons]
      have he := hg e List.mem_cons_self
      by_cases hx : e.id = x
      · have hall : (g e).filter (fun o ↦ o.editionId = x) = g e :=
          List.filter_eq_self.mpr fun o ho ↦ decide_eq_true ((he o ho).trans hx)
        rw [hall, if_pos (decide_eq_true hx), List.flatMap_cons]
      · have hnone : (g e).filter (fun o ↦ o.editionId = x) = [] :=
          List.filter_eq_nil_iff.mpr fun o ho h ↦ hx ((he o ho).symm.trans (of_decide_eq_true h))
        rw [hnone, if_neg (by simpa using hx), List.nil_append]

/-- What a tick puts out about an edition is a move of it. -/
theorem drainRun_advance (h : Run (DrainStep now) db es db')
    (hes : ∀ e ∈ es, e ∈ db.editions.rows ∧ e.status = .awaitingResults)
    (hids : (es.map Edition.id).Nodup) (x : Nat) :
    Advance x (stage x db) (about x (es.flatMap (drainSent db) ++ es.flatMap (drainStored db)))
      (stage x db') := by
  have hsplit : about x (es.flatMap (drainSent db) ++ es.flatMap (drainStored db)) =
      (es.filter fun e ↦ e.id = x).flatMap (drainSent db) ++
        (es.filter fun e ↦ e.id = x).flatMap (drainStored db) := by
    rw [← about_flatMap fun e _ o ho ↦ editionId_of_drain (List.mem_append_left _ ho),
      ← about_flatMap fun e _ o ho ↦ editionId_of_drain (List.mem_append_right _ ho)]
    exact List.filter_append ..
  rw [hsplit]
  by_cases hx : ∃ e ∈ es, e.id = x
  · obtain ⟨e, he, rfl⟩ := hx
    obtain ⟨before, after, rfl⟩ := List.append_of_mem he
    obtain ⟨db₁, hbefore, hrest⟩ := Run.append_iff.mp h
    obtain ⟨db₂, hstep, hafter⟩ := Run.cons_iff.mp hrest
    simp only [List.map_append, List.map_cons, List.nodup_append, List.nodup_cons] at hids
    have hne₁ : ∀ e' ∈ before, e.id ≠ e'.id := fun e' he' heq ↦
      hids.2.2 _ (List.mem_map_of_mem he') _ List.mem_cons_self heq.symm
    have hne₂ : ∀ e' ∈ after, e.id ≠ e'.id := fun e' he' heq ↦
      hids.2.1.1 (heq ▸ List.mem_map_of_mem he')
    have honly : ((before ++ e :: after).filter fun e' ↦ e'.id = e.id) = [e] := by
      rw [List.filter_append, List.filter_cons, if_pos (by simp)]
      rw [List.filter_eq_nil_iff.mpr fun e' he' h ↦ hne₁ e' he' (of_decide_eq_true h).symm]
      rw [List.filter_eq_nil_iff.mpr fun e' he' h ↦ hne₂ e' he' (of_decide_eq_true h).symm]
      rfl
    have hget₁ := drainRun_get?_edition hbefore hne₁
    have hstage₁ : stage e.id db₁ = stage e.id db := by rw [stage, stage, hget₁]
    have hstage₂ : stage e.id db' = stage e.id db₂ := by
      rw [stage, stage, drainRun_get?_edition hafter hne₂]
    have hcount := drainRun_inflight hbefore hne₁
    have hsent : drainSent db₁ e = drainSent db e := by
      rw [drainSent, drainSent, editionSends, editionSends, hcount]
    have hstored : drainStored db₁ e = drainStored db e := by
      rw [drainStored, drainStored, drains, drains, hcount]
    obtain ⟨hmem, hs⟩ := hes e he
    have hadvance := hstep.advance
      (Table.mem_of_get? (hget₁.trans (Table.get?_of_mem hmem))) hs
    rw [hsent, hstored, hstage₁] at hadvance
    rw [honly, hstage₂]
    simpa using hadvance
  · have hnone : (es.filter fun e ↦ e.id = x) = [] :=
      List.filter_eq_nil_iff.mpr fun e he h ↦ hx ⟨e, he, of_decide_eq_true h⟩
    have hget := drainRun_get?_edition h fun e he heq ↦ hx ⟨e, he, (heq : x = e.id).symm⟩
    rw [hnone, stage, stage, hget]
    exact .stay _

end Tick

/-- Publishing the rows touches no edition, and of the rows only the mark. -/
theorem publishRun_frame {db db' : Db} {rows : List PendingTransition}
    (h : Run PublishStep db rows db') : db'.editions = db.editions ∧
      db'.pendingTransitions.rows.map (fun t ↦ { t with published := false }) =
        db.pendingTransitions.rows.map fun t ↦ { t with published := false } := by
  induction h with
  | nil _ => exact ⟨rfl, rfl⟩
  | cons hstep _ ih =>
      obtain ⟨db₁, hr, rfl⟩ := hstep
      obtain ⟨heditions, hrows⟩ := ih
      refine ⟨heditions.trans hr.editions_eq, hrows.trans ?_⟩
      rw [markTransitionPublished, Table.rows_modify, List.map_map, hr.pendingTransitions_eq]
      refine List.map_congr_left fun t _ ↦ ?_
      simp only [Function.comp_apply]
      split <;> rfl

/-- A property of rows that does not look at the mark. -/
theorem forall_rows_of_map_eq {P : PendingTransition → Prop} {rows rows' : List PendingTransition}
    (hP : ∀ t, P { t with published := false } ↔ P t)
    (h : rows'.map (fun t ↦ { t with published := false }) =
      rows.map fun t ↦ { t with published := false }) : (∀ t ∈ rows', P t) ↔ ∀ t ∈ rows, P t := by
  have hmap (l : List PendingTransition) : (∀ t ∈ l, P t) ↔
      ∀ t ∈ l.map fun t ↦ { t with published := false }, P t := by simp [hP]
  rw [hmap, h, ← hmap]

theorem filterMap_rowOutput_of_map_eq {rows rows' : List PendingTransition}
    (h : rows'.map (fun t ↦ { t with published := false }) =
      rows.map fun t ↦ { t with published := false }) (nextId : Nat) :
    rows'.filterMap (rowOutput nextId) = rows.filterMap (rowOutput nextId) := by
  have hmap (l : List PendingTransition) : l.filterMap (rowOutput nextId) =
      (l.map fun t ↦ { t with published := false }).filterMap (rowOutput nextId) := by
    rw [List.filterMap_map]
    rfl
  rw [hmap, h, ← hmap]

/-- The rows of the editions that drain are what their drains store. -/
theorem filterMap_drains (db : Db) (es : List Edition) :
    ((es.filter (drains db)).map fun e ↦ some e.id).filterMap
        (fun d ↦ d.map fun editionId ↦ Output.results editionId .deferred) =
      es.flatMap (drainStored db) := by
  induction es with
  | nil => rfl
  | cons e es ih =>
      rw [List.flatMap_cons, ← ih, List.filter_cons, drainStored]
      split <;> rfl

/-- What a tick does when every row of the outbox decodes: it drains and publishes,
puts out what the drain does, and leaves every row decodable. -/
theorem tick_spec {db : Db} (hdb : Decodable db) (now : Int)
    (lockedEditions lockedTransitions : Nat → Bool) :
    ∃ db₁, Run (DrainStep now) db (fetchAwaitingResultsEditions lockedEditions db) db₁ ∧
      (publicationWorld db (.tick now lockedEditions lockedTransitions)).db.editions =
        db₁.editions ∧
      outputs db (publicationWorld db (.tick now lockedEditions lockedTransitions)) =
        (fetchAwaitingResultsEditions lockedEditions db).flatMap (drainSent db) ++
          (fetchAwaitingResultsEditions lockedEditions db).flatMap (drainStored db) ∧
      Decodable (publicationWorld db (.tick now lockedEditions lockedTransitions)).db := by
  let es := fetchAwaitingResultsEditions lockedEditions db
  have hrows : ∀ t ∈ fetchUnpublishedTransitions lockedTransitions db, undecodable t = false :=
    fun t ht ↦ hdb t (mem_fetchUnpublishedTransitions.mp ht).1
  obtain ⟨w', db₁, hok, hdrain, hpublish, hreceipts⟩ :=
    publishPendingTransitions_returns (ε := TournamentsError) (w := { db }) now hrows
      (not_raises_nil _)
  have hw : publicationWorld db (.tick now lockedEditions lockedTransitions) = w' := by
    rw [publicationWorld, hok, final_ok]
  obtain ⟨heditions, hmarks⟩ := publishRun_frame hpublish
  obtain ⟨new, hnew, hdeferred, hall⟩ := drainRun_rows hdrain (nodup_fetchAwaitingResultsEditions _ _)
  rw [hw]
  refine ⟨db₁, hdrain, heditions, ?_, ?_⟩
  · have hsent : (w'.receipts receipt).filterMap sentOutput = es.flatMap (drainSent db) := by
      have hrowless (rows : List PendingTransition) :
          (rows.flatMap fun t ↦ (rowReceipt t).toList).filterMap sentOutput = [] := by
        refine List.filterMap_eq_nil_iff.mpr fun r hr ↦ ?_
        obtain ⟨t, _, hr⟩ := List.mem_flatMap.mp hr
        rw [Option.mem_toList, rowReceipt] at hr
        split at hr
        · rw [← Option.some.inj hr]
          rfl
        · cases hr
      rw [hreceipts, delivered_nil]
      change ([] ++ _ : List Receipt).filterMap sentOutput = _
      rw [List.nil_append, List.filterMap_append, hrowless, List.append_nil, List.filterMap_flatMap]
      rfl
    have hstored : w'.db.pendingTransitions.rows.filterMap
        (rowOutput db.pendingTransitions.nextId) = es.flatMap (drainStored db) := by
      rw [filterMap_rowOutput_of_map_eq hmarks,
        filterMap_rowOutput hnew fun t ht ↦ (hall t ht).2.1, hdeferred]
      exact filterMap_drains db es
    rw [outputs, hsent, hstored]
  · refine (forall_rows_of_map_eq (P := fun t ↦ undecodable t = false) (fun t ↦ Iff.rfl) hmarks).mpr ?_
    rw [hnew]
    intro t ht
    rcases List.mem_append.mp ht with ht | ht
    · exact hdb t ht
    · exact (hall t ht).2.2

/-! ## The steps -/

/-- What a step does to every edition, and that it leaves the outbox decodable. -/
structure StepSpec (db : Db) (l : PublicationLabel) (outs : List Output) (db' : Db) : Prop where
  decodable : Decodable db'
  advance : ∀ x, Advance x (stage x db) (about x outs) (stage x db')
  drained : ¬ l.Forced → ∀ x kind, .results x kind ∈ outs →
    ∀ c ∈ db.completions.rows, inflight x db c = false

section Step

variable {db : Db} {x : Nat}

/-- A step that sends nothing and leaves the outbox alone. -/
theorem StepSpec.quiet {l : PublicationLabel} (hdb : Decodable db)
    (hbroker : (publicationWorld db l).broker = [])
    (hrows : (publicationWorld db l).db.pendingTransitions = db.pendingTransitions)
    (hstage : ∀ x, Advance x (stage x db) [] (stage x (publicationWorld db l).db)) :
    StepSpec db l (outputs db (publicationWorld db l)) (publicationWorld db l).db := by
  rw [outputs_quiet hbroker hrows]
  refine ⟨?_, hstage, by simp⟩
  rw [Decodable, hrows]
  exact hdb

theorem stage_of_eq {db' : Db} (h : db'.editions = db.editions) (x : Nat) :
    Advance x (stage x db) [] (stage x db') := by
  rw [stage, stage, h]
  exact .stay _

theorem stage_createEdition (startedAt endsAt : Int) :
    stage x (createEdition startedAt endsAt db).2 =
      if x = db.editions.nextId then some (.active, false) else stage x db := by
  rw [stage, createEdition, Table.get?_insert, stage]
  split <;> rfl

theorem stage_closeEdition (editionId : Nat) :
    stage x (closeEdition editionId db) =
      if x = editionId then (stage x db).map fun v ↦ (.awaitingResults, v.2) else stage x db := by
  rw [stage, stage]
  have hget : (closeEdition editionId db).editions.get? x = (db.editions.get? x).map fun e ↦
      if e.id = editionId then { e with status := .awaitingResults } else e := by
    simp [closeEdition, awaitResults, finalizeChildren]
  rw [hget]
  cases h : db.editions.get? x with
  | none => simp
  | some e =>
      have hid : e.id = x := Table.key_of_get? h
      by_cases hx : x = editionId <;> simp [hid, hx]

/-- An edition that is opened has the next id. -/
theorem stage_nextId : stage db.editions.nextId db = none := by rw [stage, Table.get?_nextId]; rfl

theorem advance_closeEdition {e : Edition} (he : e ∈ db.editions.rows) (hs : e.status = .active)
    (x : Nat) : Advance x (stage x db) [] (stage x (closeEdition e.id db)) := by
  rw [stage_closeEdition]
  split
  · rename_i hx
    have hstage : stage x db = some (.active, e.startAnnounced) := by
      rw [hx, stage, show db.editions.get? e.id = some e from Table.get?_of_mem he, ← hs]
      rfl
    rw [hstage]
    exact .closed _
  · exact .stay _

theorem transition_spec (hdb : Decodable db) (lockFree : Bool) (now : Int)
    (random : Nat → Shuffle CoreMap) :
    StepSpec db (.transition lockFree now random)
      (outputs db (publicationWorld db (.transition lockFree now random)))
      (publicationWorld db (.transition lockFree now random)).db := by
  rcases processEditionTransitions_cases lockFree now random db with
    ⟨_, h⟩ | ⟨e, _, hdue, _, h⟩ | ⟨e, _, hdue, _, hrun⟩
  · exact .quiet hdb rfl (congrArg Db.pendingTransitions h) (stage_of_eq (congrArg Db.editions h))
  · obtain ⟨he, hs, _⟩ := dueEdition_spec hdue
    have hrows := congrArg Db.pendingTransitions h
    refine .quiet hdb rfl hrows fun x ↦ ?_
    rw [publicationWorld, h]
    exact advance_closeEdition he hs x
  · obtain ⟨he, hs, _⟩ := dueEdition_spec hdue
    have heq := childRun_eq hrun
    have hrows := congrArg Db.pendingTransitions heq
    refine .quiet hdb rfl hrows fun x ↦ ?_
    have hstage : stage x (publicationWorld db (.transition lockFree now random)).db =
        stage x (createEdition e.endsAt (e.endsAt + editionPeriod db.config)
          (closeEdition e.id db)).2 := by
      rw [publicationWorld, heq]
      rfl
    rw [hstage, stage_createEdition]
    split
    · rename_i hx
      rw [hx, show (closeEdition e.id db).editions.nextId = db.editions.nextId from rfl, stage_nextId]
      exact .opened
    · exact advance_closeEdition he hs x

theorem force_spec (hdb : Decodable db) (now : Int) (locked : Nat → Bool) :
    StepSpec db (.force now locked) (outputs db (publicationWorld db (.force now locked)))
      (publicationWorld db (.force now locked)).db := by
  have hforce := forcePublishResults_apply now locked { db }
  cases hes : fetchAwaitingResultsEditions locked db with
  | nil =>
      rw [hes] at hforce
      have hworld : publicationWorld db (.force now locked) = { db } := congrArg final hforce
      exact .quiet hdb (congrArg World.broker hworld)
        (congrArg (Db.pendingTransitions ∘ World.db) hworld)
        (stage_of_eq (congrArg (Db.editions ∘ World.db) hworld))
  | cons e es =>
      have hmem : e ∈ fetchAwaitingResultsEditions locked db := by
        rw [hes]
        exact List.mem_cons_self
      obtain ⟨he, hs, _⟩ := mem_fetchAwaitingResultsEditions.mp hmem
      rw [hes] at hforce
      have hworld : publicationWorld db (.force now locked) =
          { db := writeDrainedResultsRow e.id now db } := congrArg final hforce
      have hrows : (publicationWorld db (.force now locked)).db.pendingTransitions.rows =
          db.pendingTransitions.rows ++ [drainedRow e.id now db db.pendingTransitions.nextId] := by
        rw [hworld]
        rfl
      have houts : outputs db (publicationWorld db (.force now locked)) =
          [.results e.id .deferred] := by
        rw [outputs, filterMap_rowOutput hrows (by simp [drainedRow]), hworld]
        rfl
      rw [houts]
      refine ⟨fun t ht ↦ ?_, fun x ↦ ?_, fun hforced ↦ absurd trivial hforced⟩
      · rw [hrows, List.mem_append, List.mem_singleton] at ht
        rcases ht with ht | rfl
        · exact hdb t ht
        · rfl
      · have hstage : stage x (publicationWorld db (.force now locked)).db =
            if x = e.id then (stage x db).map fun v ↦ (.completed, v.2) else stage x db := by
          rw [hworld]
          exact stage_completeEdition e.id
        rw [hstage]
        by_cases hx : x = e.id
        · have hawaiting : stage x db = some (.awaitingResults, e.startAnnounced) := by
            rw [hx, stage, show db.editions.get? e.id = some e from Table.get?_of_mem he, ← hs]
            rfl
          have habout : about x [.results e.id .deferred] = [.results x .deferred] := by
            simp [about, Output.editionId, hx]
          rw [if_pos hx, hawaiting, habout]
          exact .published _ _
        · have habout : about x [.results e.id .deferred] = [] := by
            simp [about, Output.editionId, Ne.symm hx]
          rw [if_neg hx, habout]
          exact .stay _

theorem bootstrap_spec (hdb : Decodable db) (zones : TimeZones) (now : Int)
    (random : Nat → Shuffle CoreMap) :
    StepSpec db (.bootstrap zones now random)
      (outputs db (publicationWorld db (.bootstrap zones now random)))
      (publicationWorld db (.bootstrap zones now random)).db := by
  have hquiet (h : publicationWorld db (.bootstrap zones now random) = { db }) :
      StepSpec db (.bootstrap zones now random)
        (outputs db (publicationWorld db (.bootstrap zones now random)))
        (publicationWorld db (.bootstrap zones now random)).db :=
    .quiet hdb (congrArg World.broker h) (congrArg (Db.pendingTransitions ∘ World.db) h)
      (stage_of_eq (congrArg (Db.editions ∘ World.db) h))
  rcases bootstrapEdition_cases zones now random db with ⟨_, hworld⟩ | ⟨_, hworld⟩
  · exact hquiet hworld
  · change publicationWorld db (.bootstrap zones now random) = _ at hworld
    rcases bootstrapInsert_cases zones now random db with
      ⟨_, started, db₂, hcodes, hrun, h⟩ | ⟨_, h⟩
    · have hworld := hworld.trans h
      have heq := childRun_eq hrun
      let startedAt := bootstrapStart zones now db.config
      let endsAt := startedAt + periodFromConfig db.config
      let row : PendingTransition :=
        { id := db.pendingTransitions.nextId, cycleId := none
          editionId := some db.editions.nextId, eventType := .editionRollover
          payload := encodeRollover { editionId := db.editions.nextId, results := [], started }
          createdAt := now }
      have hrows : (publicationWorld db (.bootstrap zones now random)).db.pendingTransitions.rows =
          db.pendingTransitions.rows ++ [row] := by
        rw [hworld, heq]
        rfl
      have houts : outputs db (publicationWorld db (.bootstrap zones now random)) = [] := by
        rw [outputs, filterMap_rowOutput hrows (by simp [row]), hworld]
        rfl
      rw [houts]
      refine ⟨fun t ht ↦ ?_, fun x ↦ ?_, by simp⟩
      · rw [hrows, List.mem_append, List.mem_singleton] at ht
        rcases ht with ht | rfl
        · exact hdb t ht
        · have hconvert : convertRollover row.payload =
              some { editionId := db.editions.nextId, results := [], started } :=
            convertRollover_encode hcodes
          simp only [undecodable, rowReceipt, buildEvent, row, hconvert]
          rfl
      · have hstage : stage x (publicationWorld db (.bootstrap zones now random)).db =
            stage x (createEdition startedAt endsAt db).2 := by
          rw [hworld, heq]
          rfl
        rw [hstage, stage_createEdition]
        split
        · rename_i hx
          rw [hx, stage_nextId]
          exact .opened
        · exact .stay _
    · exact hquiet (hworld.trans h)

theorem tick_stepSpec (hdb : Decodable db) (now : Int) (lockedEditions lockedTransitions : Nat → Bool) :
    StepSpec db (.tick now lockedEditions lockedTransitions)
      (outputs db (publicationWorld db (.tick now lockedEditions lockedTransitions)))
      (publicationWorld db (.tick now lockedEditions lockedTransitions)).db := by
  obtain ⟨db₁, hdrain, heditions, houts, hdecodable⟩ :=
    tick_spec hdb now lockedEditions lockedTransitions
  have hes : ∀ e ∈ fetchAwaitingResultsEditions lockedEditions db,
      e ∈ db.editions.rows ∧ e.status = .awaitingResults := fun e he ↦ by
    obtain ⟨hmem, hs, _⟩ := mem_fetchAwaitingResultsEditions.mp he
    exact ⟨hmem, hs⟩
  refine ⟨hdecodable, fun x ↦ ?_, fun _ x kind hmem ↦ ?_⟩
  · have hadvance := drainRun_advance hdrain hes (nodup_fetchAwaitingResultsEditions _ _) x
    rw [houts]
    rwa [stage, stage, heditions] at *
  · rw [houts, List.mem_append] at hmem
    have hedition : ∃ e, .results x kind ∈ drainSent db e ++ drainStored db e := by
      rcases hmem with hmem | hmem <;> obtain ⟨e, _, hmem⟩ := List.mem_flatMap.mp hmem
      · exact ⟨e, List.mem_append_left _ hmem⟩
      · exact ⟨e, List.mem_append_right _ hmem⟩
    obtain ⟨e, hmem⟩ := hedition
    have hzero := inflight_of_drain hmem
    obtain rfl : x = e.id := editionId_of_drain hmem
    simpa [countInflightVerifications, List.countP_eq_zero] using hzero

/-- Every step of the machine. -/
theorem PublicationStep.spec {l : PublicationLabel × List Output} {db' : Db} (hdb : Decodable db)
    (h : PublicationStep db l db') : StepSpec db l.1 l.2 db' := by
  obtain ⟨l, outs⟩ := l
  obtain ⟨rfl, rfl⟩ : db' = (publicationWorld db l).db ∧ outs = outputs db (publicationWorld db l) := h
  cases l with
  | transition lockFree now random => exact transition_spec hdb lockFree now random
  | tick now lockedEditions lockedTransitions => exact tick_stepSpec hdb now _ _
  | force now locked => exact force_spec hdb now locked
  | verdict tc verified =>
      obtain ⟨heditions, _, hrows, _⟩ := verdictWrite_frame tc verified verified db
      exact .quiet hdb rfl hrows (stage_of_eq heditions)
  | submit cycleId userId mapId time screenshot video now =>
      have hframe : (publicationWorld db
            (.submit cycleId userId mapId time screenshot video now)).broker = [] ∧
          (publicationWorld db
            (.submit cycleId userId mapId time screenshot video now)).db.pendingTransitions =
            db.pendingTransitions ∧
          (publicationWorld db
            (.submit cycleId userId mapId time screenshot video now)).db.editions =
            db.editions := by
        rw [publicationWorld, createTournamentCompletion]
        split_ifs <;> exact ⟨rfl, rfl, rfl⟩
      exact .quiet hdb hframe.1 hframe.2.1 (stage_of_eq hframe.2.2)
  | bootstrap zones now random => exact bootstrap_spec hdb zones now random

end Step

/-! ## Runs -/

/-- The status of an edition. -/
def editionStatus (x : Nat) (db : Db) : Option EditionStatus := (stage x db).map Prod.fst

/-- What a step may do about the edition `x`: its results come out exactly when it is
completed, which it is from `awaiting_results`; its start comes out while it awaits
results; and unless the step is forced, results come out only when no run on its
active or finalizing cycles is pending. -/
structure Orderly (x : Nat) (db : Db) (l : PublicationLabel × List Output) (db' : Db) : Prop where
  published : (∃ kind, .results x kind ∈ l.2) ↔
    editionStatus x db = some .awaitingResults ∧ editionStatus x db' = some .completed
  announced : .start x ∈ l.2 →
    editionStatus x db = some .awaitingResults ∧ editionStatus x db' = some .awaitingResults
  drained : ¬ l.1.Forced → ∀ kind, .results x kind ∈ l.2 →
    ∀ c ∈ db.completions.rows, inflight x db c = false

/-- What may still come out about an edition in this stage. -/
def remaining (x : Nat) (v : Option (EditionStatus × Bool)) (kind : ResultsKind) : List Output :=
  match v with
  | some (.completed, _) => []
  | some (.awaitingResults, true) => [.results x kind]
  | _ => [.start x, .results x kind]

section Run

variable {x : Nat} {v v' : Option (EditionStatus × Bool)} {outs rest : List Output}

theorem mem_about {o : Output} : o ∈ about x outs ↔ o ∈ outs ∧ o.editionId = x := by simp [about]

theorem remaining_sublist (kind : ResultsKind) :
    (remaining x v kind).Sublist [.start x, .results x kind] := by
  unfold remaining
  split
  · exact List.nil_sublist _
  · exact (List.Sublist.refl _).cons _
  · exact .refl _

/-- One move uses up its part of what may come out. -/
theorem Advance.sublist (h : Advance x v outs v')
    (hrest : ∃ kind, rest.Sublist (remaining x v' kind)) :
    ∃ kind, (outs ++ rest).Sublist (remaining x v kind) := by
  obtain ⟨kind, hrest⟩ := hrest
  cases h with
  | stay => exact ⟨kind, hrest⟩
  | opened => exact ⟨kind, hrest⟩
  | closed a =>
      cases a with
      | false => exact ⟨kind, hrest⟩
      | true => exact ⟨kind, hrest.cons _⟩
  | announced => exact ⟨kind, hrest.cons_cons _⟩
  | published a kind' =>
      rw [List.sublist_nil.mp hrest]
      cases a with
      | false => exact ⟨kind', (List.Sublist.refl _).cons _⟩
      | true => exact ⟨kind', .refl _⟩

/-- A move completes the edition exactly when results come out. -/
theorem Advance.results_iff (h : Advance x v outs v') :
    (∃ kind, .results x kind ∈ outs) ↔
      v.map Prod.fst = some .awaitingResults ∧ v'.map Prod.fst = some .completed := by
  cases h with
  | stay =>
      simp only [List.not_mem_nil, exists_false, false_iff, not_and]
      intro h h'
      rw [h] at h'
      cases h'
  | opened => simp
  | closed a => simp
  | announced => simp
  | published a kind => simp

theorem Advance.start_iff (h : Advance x v outs v') (hstart : .start x ∈ outs) :
    v.map Prod.fst = some .awaitingResults ∧ v'.map Prod.fst = some .awaitingResults := by
  cases h with
  | announced => exact ⟨rfl, rfl⟩
  | stay => simp at hstart
  | opened => simp at hstart
  | closed a => simp at hstart
  | published a kind => simp at hstart

/-- An edition becomes completed in no other move, and stays so. -/
theorem Advance.completed_iff (h : Advance x v outs v') :
    v'.map Prod.fst = some .completed ↔
      v.map Prod.fst = some .completed ∨ ∃ kind, .results x kind ∈ outs := by
  cases h <;> simp

theorem StepSpec.orderly {db db' : Db} {l : PublicationLabel × List Output}
    (h : StepSpec db l.1 l.2 db') (x : Nat) : Orderly x db l db' where
  published := by
    rw [editionStatus, editionStatus, ← (h.advance x).results_iff]
    simp [mem_about, Output.editionId]
  announced := fun hstart ↦ (h.advance x).start_iff (mem_about.mpr ⟨hstart, rfl⟩)
  drained := fun hforced kind hmem ↦ h.drained hforced x kind hmem

/-- Whatever the order of transitions, ticks, verdicts, submissions, bootstraps and
force-publishes: about an edition there comes out at most a start-only rollover and
then its results, of one kind and once; results come out in the run exactly when it
completes the edition; and every step is orderly. -/
theorem edition_published_once {db db' : Db} {ls : List (PublicationLabel × List Output)}
    (hdb : Decodable db) (h : Run PublicationStep db ls db') (x : Nat) :
    (∃ kind, (about x (ls.flatMap Prod.snd)).Sublist [.start x, .results x kind]) ∧
    ((∃ kind, .results x kind ∈ ls.flatMap Prod.snd) ↔
      editionStatus x db ≠ some .completed ∧ editionStatus x db' = some .completed) ∧
    Run (fun db l db' ↦ PublicationStep db l db' ∧ Orderly x db l db') db ls db' := by
  suffices hrun : (∃ kind, (about x (ls.flatMap Prod.snd)).Sublist (remaining x (stage x db) kind)) ∧
      (editionStatus x db' = some .completed ↔
        editionStatus x db = some .completed ∨ ∃ kind, .results x kind ∈ ls.flatMap Prod.snd) ∧
      Run (fun db l db' ↦ PublicationStep db l db' ∧ Orderly x db l db') db ls db' by
    obtain ⟨⟨kind, hsub⟩, hcompleted, horderly⟩ := hrun
    refine ⟨⟨kind, hsub.trans (remaining_sublist kind)⟩, ?_, horderly⟩
    · rw [hcompleted]
      constructor
      · rintro ⟨k, hk⟩
        refine ⟨fun hdone ↦ ?_, .inr ⟨k, hk⟩⟩
        -- nothing more comes out of a completed edition
        have hnil : about x (ls.flatMap Prod.snd) = [] := by
          obtain ⟨⟨status, a⟩, hstage, rfl⟩ := Option.map_eq_some_iff.mp hdone
          rw [hstage] at hsub
          exact List.sublist_nil.mp hsub
        have hmem : .results x k ∈ about x (ls.flatMap Prod.snd) := mem_about.mpr ⟨hk, rfl⟩
        rw [hnil] at hmem
        cases hmem
      · rintro ⟨hnot, hdone⟩
        exact hdone.resolve_left hnot
  induction h with
  | nil db => exact ⟨⟨.combined, List.nil_sublist _⟩, by simp, .nil db⟩
  | cons hstep _ ih =>
      have hspec := hstep.spec hdb
      obtain ⟨hsub, hcompleted, horderly⟩ := ih hspec.decodable
      refine ⟨?_, ?_, .cons ⟨hstep, hspec.orderly x⟩ horderly⟩
      · have hsplit := (hspec.advance x).sublist hsub
        rw [List.flatMap_cons, about, List.filter_append]
        exact hsplit
      · have hfirst := (hspec.advance x).completed_iff
        simp only [mem_about, Output.editionId, and_true] at hfirst
        rw [hcompleted, editionStatus, hfirst, editionStatus, List.flatMap_cons, or_assoc]
        simp only [List.mem_append, exists_or]

end Run

/-- An edition that has ended with one run in verification. -/
def draining : Db where
  editions := Table.empty.insert fun id ↦
    { id, startedAt := 0, endsAt := 10, status := .awaitingResults }
  cycles := Table.empty.insert fun id ↦
    { id, categoryId := 1, mapId := 1, status := .finalizing, startedAt := some 0
      editionId := some 1 }
  completions := Table.empty.insert fun id ↦
    { id, cycleId := 1, userId := 7, mapId := 1, time := 1250, insertedAt := 5 }

/-- A tick while nothing is held by other transactions. -/
def freeTick (now : Int) : PublicationLabel := .tick now (fun _ ↦ false) fun _ ↦ false

/-- Its first tick announces the start, and the one after the verdict publishes. -/
example :
    let w := publicationWorld draining (freeTick 20)
    let w' := publicationWorld w.db (.verdict 1 true)
    outputs draining w = [.start 1] ∧
      outputs w'.db (publicationWorld w'.db (freeTick 21)) = [.results 1 .deferred] := by
  decide +kernel

/-- The first of these ticks as a run. -/
theorem edition_published_once_draining :
    let w := publicationWorld draining (freeTick 20)
    (∃ kind, (about 1 (outputs draining w)).Sublist [.start 1, .results 1 kind]) ∧
      ((∃ kind, .results 1 kind ∈ outputs draining w) ↔
        editionStatus 1 draining ≠ some .completed ∧ editionStatus 1 w.db = some .completed) := by
  have hrun : Run PublicationStep draining
      [(freeTick 20, outputs draining (publicationWorld draining (freeTick 20)))]
      (publicationWorld draining (freeTick 20)).db := .single ⟨rfl, rfl⟩
  obtain ⟨hsub, hiff, _⟩ := edition_published_once (by simp [Decodable, draining]) hrun 1
  exact ⟨by simpa using hsub, by simpa using hiff⟩

end Genjishimada.Tournaments
