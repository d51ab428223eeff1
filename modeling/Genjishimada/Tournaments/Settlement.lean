import Genjishimada.Tournaments.Publication

/-!
# The settlement of the outbox

Whatever has happened before, a tick that is locked out of nothing leaves nothing behind that
another tick could do: an edition whose runs are all decided is completed and its results are out,
one whose runs are not is announced and waits, and every row of the outbox is published.
-/

namespace Genjishimada.Tournaments

open Library Sdk Repository Services

variable {now : Int} {db db₁ db' : Db} {es : List Edition} {e : Edition} {x : Nat}

/-! ## The drain of an edition -/

/-- Where the drain of an edition leaves it. -/
def drainedStage (db : Db) (e : Edition) : EditionStatus × Bool :=
  if countInflightVerifications e.id db = 0 then (.completed, e.startAnnounced)
  else (.awaitingResults, true)

/-- A drain takes an edition that awaits its results to its stage, and keeps the count of one that
goes on waiting. -/
theorem DrainStep.stage_eq (h : DrainStep now db e db') (he : e ∈ db.editions.rows)
    (hs : e.status = .awaitingResults) :
    stage e.id db' = some (drainedStage db e) ∧
      (countInflightVerifications e.id db ≠ 0 →
        countInflightVerifications e.id db' = countInflightVerifications e.id db) := by
  obtain ⟨db₁, hr, rfl⟩ := h
  have hget : db₁.editions.get? e.id = some e := by
    rw [hr.editions_eq]
    exact Table.get?_of_mem he
  have hstage : stage e.id db₁ = some (.awaitingResults, e.startAnnounced) := by
    rw [stage, hget, ← hs]
    rfl
  have hcount : countInflightVerifications e.id db₁ = countInflightVerifications e.id db :=
    countInflightVerifications_congr hr.completions_eq hr.cycles_eq e.id
  rw [drainedStage, ← hcount]
  rcases drainEdition_cases now e db₁ with
    ⟨ha, hi, hd⟩ | ⟨ha, hi, hd⟩ | ⟨ha, hi, hd⟩ | ⟨ha, hi, hd⟩
  · rw [if_neg hi.ne', hd]
    refine ⟨?_, fun _ ↦ countInflightVerifications_congr rfl rfl e.id⟩
    rw [stage, markEditionStartAnnounced, Table.get?_modify, hget]
    simp [hs]
  · rw [if_pos hi, hd, stage_completeEdition, if_pos rfl, hstage]
    exact ⟨rfl, fun hne ↦ absurd hi hne⟩
  · rw [if_pos hi, hd, writeDrainedResultsRow, stage_completeEdition, if_pos rfl]
    change (stage e.id db₁).map _ = _ ∧ _
    rw [hstage]
    exact ⟨rfl, fun hne ↦ absurd hi hne⟩
  · rw [if_neg hi.ne', hd, hstage, ha]
    exact ⟨rfl, fun _ ↦ rfl⟩

/-- What a drain of several editions leaves of each of them. -/
theorem drainRun_stage (h : Run (DrainStep now) db es db')
    (hes : ∀ e ∈ es, e ∈ db.editions.rows ∧ e.status = .awaitingResults)
    (hids : (es.map Edition.id).Nodup) : ∀ e ∈ es,
      stage e.id db' = some (drainedStage db e) ∧
        (countInflightVerifications e.id db ≠ 0 →
          countInflightVerifications e.id db' = countInflightVerifications e.id db) := by
  induction h with
  | nil _ => simp
  | cons hstep hrun ih =>
      rename_i db db₁ db' e es
      obtain ⟨he, hids⟩ := List.nodup_cons.mp hids
      have hne : ∀ e' ∈ es, e'.id ≠ e.id := fun e' he' heq ↦ he (heq ▸ List.mem_map_of_mem he')
      have hfirst := hstep.stage_eq (hes e List.mem_cons_self).1 (hes e List.mem_cons_self).2
      have hes₁ : ∀ e' ∈ es, e' ∈ db₁.editions.rows ∧ e'.status = .awaitingResults := by
        intro e' he'
        obtain ⟨hmem, hs⟩ := hes e' (List.mem_cons_of_mem _ he')
        have hget : db₁.editions.get? e'.id = some e' :=
          (hstep.get?_edition (hne e' he')).trans (Table.get?_of_mem hmem)
        exact ⟨Table.mem_of_get? hget, hs⟩
      have hrest := ih hes₁ hids
      intro e' he'
      rcases List.mem_cons.mp he' with rfl | he'
      · -- the rest of the drain does not touch it
        have hother : ∀ e ∈ es, e'.id ≠ e.id := fun e h heq ↦ hne e h heq.symm
        rw [stage, drainRun_get?_edition hrun hother, drainRun_inflight hrun hother]
        exact hfirst
      · obtain ⟨hstage, hcount⟩ := hrest e' he'
        have hsame := hstep.inflight (hne e' he')
        rw [drainedStage, hsame] at hstage
        rw [hsame] at hcount
        exact ⟨hstage, hcount⟩

/-! ## The rows of the outbox -/

/-- Publishing a row leaves no row of its id unpublished, and publishes no other row again. -/
theorem publishRun_published {rows : List PendingTransition} (h : Run PublishStep db rows db') :
    ∀ t ∈ db'.pendingTransitions.rows, t.published = false →
      t ∈ db.pendingTransitions.rows ∧ ∀ r ∈ rows, r.id ≠ t.id := by
  induction h with
  | nil _ => exact fun t ht _ ↦ ⟨ht, by simp⟩
  | cons hstep _ ih =>
      rename_i db db₁ db' r rows _
      obtain ⟨db₂, hr, rfl⟩ := hstep
      intro t ht hpublished
      obtain ⟨hmem, hrows⟩ := ih t ht hpublished
      rw [markTransitionPublished, Table.mem_modify] at hmem
      obtain ⟨t', ht', rfl⟩ := hmem
      rw [hr.pendingTransitions_eq] at ht'
      by_cases hid : t'.id = r.id ∧ (!t'.published) = true
      · simp [hid] at hpublished
      · rw [if_neg (by simpa using hid)] at hpublished hrows ⊢
        refine ⟨ht', List.forall_mem_cons.mpr ⟨fun heq ↦ hid ⟨heq.symm, ?_⟩, hrows⟩⟩
        rw [hpublished]
        rfl

/-- Publishing rows grants rewards and marks, and touches nothing else. -/
theorem publishRun_inflight {rows : List PendingTransition} (h : Run PublishStep db rows db') :
    countInflightVerifications x db' = countInflightVerifications x db := by
  induction h with
  | nil _ => rfl
  | cons hstep _ ih =>
      obtain ⟨db₂, hr, rfl⟩ := hstep
      rw [ih]
      exact countInflightVerifications_congr hr.completions_eq hr.cycles_eq x

/-! ## The tick -/

/-- An edition that waits is announced and has runs in verification, and every row is published. -/
structure Settled (db : Db) : Prop where
  editions : ∀ e ∈ db.editions.rows, e.status = .awaitingResults →
    e.startAnnounced = true ∧ countInflightVerifications e.id db ≠ 0
  rows : ∀ t ∈ db.pendingTransitions.rows, t.published = true

section Tick

theorem mem_fetchAwaitingResultsEditions_free :
    e ∈ fetchAwaitingResultsEditions (fun _ ↦ false) db ↔
      e ∈ db.editions.rows ∧ e.status = .awaitingResults := by
  rw [mem_fetchAwaitingResultsEditions, and_iff_left rfl]

/-- What a free tick does to the editions and the rows. -/
theorem freeTick_settles (hdb : Decodable db) (now : Int) :
    (∀ e ∈ db.editions.rows, e.status = .awaitingResults →
      stage e.id (publicationWorld db (freeTick now)).db = some (drainedStage db e)) ∧
    Settled (publicationWorld db (freeTick now)).db := by
  have hrows : ∀ t ∈ fetchUnpublishedTransitions (fun _ ↦ false) db, undecodable t = false :=
    fun t ht ↦ hdb t (mem_fetchUnpublishedTransitions.mp ht).1
  obtain ⟨w', db₁, hok, hdrain, hpublish, -⟩ :=
    publishPendingTransitions_returns (ε := TournamentsError) (w := { db }) now hrows
      (not_raises_nil _)
  have hw : publicationWorld db (freeTick now) = w' := by
    rw [freeTick, publicationWorld, hok, final_ok]
  obtain ⟨heditions, -⟩ := publishRun_frame hpublish
  have hstage (x : Nat) : stage x w'.db = stage x db₁ := by rw [stage, stage, heditions]
  have hall := drainRun_stage hdrain (fun e ↦ mem_fetchAwaitingResultsEditions_free.mp)
    (nodup_fetchAwaitingResultsEditions _ _)
  rw [hw]
  refine ⟨fun e he hs ↦ ?_, fun e he hs ↦ ?_, fun t ht ↦ ?_⟩
  · rw [hstage]
    exact (hall e (mem_fetchAwaitingResultsEditions_free.mpr ⟨he, hs⟩)).1
  · have hget : db₁.editions.get? e.id = some e := by
      rw [← heditions]
      exact Table.get?_of_mem he
    by_cases hx : ∃ e₀ ∈ fetchAwaitingResultsEditions (fun _ ↦ false) db, e₀.id = e.id
    · obtain ⟨e₀, he₀, hid⟩ := hx
      obtain ⟨hafter, hcount⟩ := hall e₀ he₀
      rw [hid, stage, hget, drainedStage, hid] at hafter
      rw [hid] at hcount
      split at hafter
      · simp [hs] at hafter
      · rename_i hne
        refine ⟨by simpa [hs] using hafter, ?_⟩
        rw [publishRun_inflight hpublish, hcount hne]
        exact hne
    · -- an edition that was not drained did not wait before either
      rw [drainRun_get?_edition hdrain fun e₀ he₀ heq ↦ hx ⟨e₀, he₀, heq.symm⟩] at hget
      exact absurd ⟨e, mem_fetchAwaitingResultsEditions_free.mpr
        ⟨Table.mem_of_get? hget, hs⟩, rfl⟩ hx
  · by_contra hpublished
    have hunpublished : t.published = false := Bool.eq_false_iff.mpr hpublished
    obtain ⟨hmem, hrest⟩ := publishRun_published hpublish t ht hunpublished
    have hdue : t ∈ rowsDue db (fun _ ↦ false) db₁ :=
      mem_fetchUnpublishedTransitions.mpr ⟨hmem, hunpublished, by simp⟩
    exact hrest t hdue rfl

/-- A drain of editions that are announced and have runs in verification does nothing to them. -/
theorem drainRun_waiting (h : Run (DrainStep now) db es db')
    (hes : ∀ e ∈ es, e ∈ db.editions.rows ∧ e.status = .awaitingResults)
    (hids : (es.map Edition.id).Nodup)
    (hwait : ∀ e ∈ es, e.startAnnounced = true ∧ countInflightVerifications e.id db ≠ 0) :
    (∀ x, stage x db' = stage x db) ∧
      db'.pendingTransitions.rows = db.pendingTransitions.rows ∧
      es.flatMap (editionSends db) = [] := by
  refine ⟨fun x ↦ ?_, ?_, ?_⟩
  · by_cases hx : ∃ e ∈ es, e.id = x
    · obtain ⟨e, he, rfl⟩ := hx
      obtain ⟨ha, hi⟩ := hwait e he
      obtain ⟨hmem, hs⟩ := hes e he
      have hget : db.editions.get? e.id = some e := Table.get?_of_mem hmem
      rw [(drainRun_stage h hes hids e he).1, drainedStage, if_neg hi, stage, hget]
      simp [hs, ha]
    · rw [stage, stage, drainRun_get?_edition h fun e he heq ↦ hx ⟨e, he, heq.symm⟩]
  · obtain ⟨new, hnew, hmap, -⟩ := drainRun_rows h hids
    have hnone : es.filter (drains db) = [] := by
      refine List.filter_eq_nil_iff.mpr fun e he hdrains ↦ (hwait e he).2 ?_
      exact (of_decide_eq_true hdrains).2
    rw [hnone, List.map_nil, List.map_eq_nil_iff] at hmap
    rw [hnew, hmap, List.append_nil]
  · refine List.flatMap_eq_nil_iff.mpr fun e he ↦ ?_
    rw [editionSends, if_pos (hwait e he).1]

/-- A tick finds nothing to do in a settled state: it sends nothing and leaves the editions and
the outbox as they are. -/
theorem Settled.freeTick (h : Settled db) (now : Int) :
    (publicationWorld db (freeTick now)).receipts receipt = [] ∧
      (∀ x, stage x (publicationWorld db (freeTick now)).db = stage x db) ∧
      (publicationWorld db (freeTick now)).db.pendingTransitions.rows =
        db.pendingTransitions.rows := by
  have hunpublished {t : PendingTransition} {locked : Nat → Bool} {db' : Db}
      (hrows : db'.pendingTransitions.rows = db.pendingTransitions.rows) :
      t ∉ fetchUnpublishedTransitions locked db' := by
    intro ht
    obtain ⟨hmem, hpublished, -⟩ := mem_fetchUnpublishedTransitions.mp ht
    rw [hrows] at hmem
    rw [h.rows t hmem] at hpublished
    cases hpublished
  obtain ⟨w', db₁, hok, hdrain, hpublish, hreceipts⟩ :=
    publishPendingTransitions_returns (ε := TournamentsError) (w := { db }) now
      (fun t ht ↦ absurd ht (hunpublished rfl)) (not_raises_nil _)
  have hw : publicationWorld db (Tournaments.freeTick now) = w' := by
    rw [Tournaments.freeTick, publicationWorld, hok, final_ok]
  have hes : ∀ e ∈ fetchAwaitingResultsEditions (fun _ ↦ false) db,
      e ∈ db.editions.rows ∧ e.status = .awaitingResults :=
    fun e ↦ mem_fetchAwaitingResultsEditions_free.mp
  obtain ⟨hstage, hrows, hsends⟩ := drainRun_waiting hdrain hes
    (nodup_fetchAwaitingResultsEditions _ _) fun e he ↦ h.editions e (hes e he).1 (hes e he).2
  have hdue : rowsDue db (fun _ ↦ false) db₁ = [] :=
    List.eq_nil_iff_forall_not_mem.mpr fun _ ↦ hunpublished hrows
  dsimp only at hpublish hreceipts
  rw [hdue] at hpublish hreceipts
  rw [hsends, delivered_nil] at hreceipts
  obtain rfl : db₁ = w'.db := Run.nil_iff.mp hpublish
  rw [hw]
  exact ⟨hreceipts, hstage, hrows⟩

end Tick

/-! ## Runs -/

section Runs

variable {ls : List (PublicationLabel × List Output)}

theorem decodable_of_run (hdb : Decodable db) (h : Run PublicationStep db ls db') :
    Decodable db' :=
  h.invariant (fun _ _ _ hdb hstep ↦ (hstep.spec hdb).decodable) hdb

/-- Whatever the order of the steps before it, a tick that is locked out of nothing completes every
edition that awaits its results with no run in verification and puts its results out, announces
the others, publishes every row of the outbox, and leaves nothing to do for a tick right after it. -/
theorem freeTick_settles_run (hdb : Decodable db) (h : Run PublicationStep db ls db₁) (now : Int) :
    (∀ x, editionStatus x db₁ = some .awaitingResults →
      (countInflightVerifications x db₁ = 0 →
        editionStatus x (publicationWorld db₁ (freeTick now)).db = some .completed ∧
        ∃ kind, .results x kind ∈ outputs db₁ (publicationWorld db₁ (freeTick now))) ∧
      (countInflightVerifications x db₁ ≠ 0 →
        stage x (publicationWorld db₁ (freeTick now)).db = some (.awaitingResults, true))) ∧
    (∀ t ∈ (publicationWorld db₁ (freeTick now)).db.pendingTransitions.rows,
      t.published = true) ∧
    ∀ later : Int,
      let w := publicationWorld (publicationWorld db₁ (freeTick now)).db (freeTick later)
      w.receipts receipt = [] ∧
        (∀ x, stage x w.db = stage x (publicationWorld db₁ (freeTick now)).db) ∧
        w.db.pendingTransitions.rows =
          (publicationWorld db₁ (freeTick now)).db.pendingTransitions.rows := by
  have hdb₁ := decodable_of_run hdb h
  obtain ⟨hstage, hsettled⟩ := freeTick_settles hdb₁ now
  refine ⟨fun x hx ↦ ?_, hsettled.rows, fun later ↦ hsettled.freeTick later⟩
  obtain ⟨e, he, rfl, hs⟩ : ∃ e ∈ db₁.editions.rows, e.id = x ∧ e.status = .awaitingResults := by
    rw [editionStatus, stage, Option.map_map, Option.map_eq_some_iff] at hx
    obtain ⟨e, hget, hs⟩ := hx
    exact ⟨e, Table.mem_of_get? hget, Table.key_of_get? hget, hs⟩
  have hafter := hstage e he hs
  constructor
  · intro hi
    have hdone : editionStatus e.id (publicationWorld db₁ (freeTick now)).db = some .completed := by
      rw [editionStatus, hafter, drainedStage, if_pos hi]
      rfl
    have hspec := tick_stepSpec hdb₁ now (fun _ ↦ false) fun _ ↦ false
    obtain ⟨kind, hkind⟩ := (hspec.advance e.id).results_iff.mpr ⟨hx, hdone⟩
    exact ⟨hdone, kind, (mem_about.mp hkind).1⟩
  · intro hi
    rw [hafter, drainedStage, if_neg hi]

/-- The edition whose one run is still in verification: its start is announced. -/
theorem freeTick_settles_draining :
    stage 1 (publicationWorld draining (freeTick 20)).db = some (.awaitingResults, true) := by
  have hrun : Run PublicationStep draining [] draining := .nil draining
  have hdecodable : Decodable draining := by simp [Decodable, draining]
  refine ((freeTick_settles_run hdecodable hrun 20).1 1 ?_).2 ?_
  · decide +kernel
  · decide +kernel

end Runs

end Genjishimada.Tournaments
