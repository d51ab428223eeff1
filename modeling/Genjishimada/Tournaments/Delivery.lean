import Genjishimada.Tournaments.Drain

/-!
# Delivery of the outbox

What one tick of the poller marks as done against what it hands to the broker.
`settled db` lists, for every outbox row marked published and for every edition
whose announcement is on record, the message that stands behind the mark; `handed`
lists the messages a tick hands over.  A tick is faithful to its outbox when the
first grows by no more than the second.

A publish that fails inside the `try` block of `publish_message` returns instead of
raising, and neither caller looks at what it returns.  So a tick is faithful exactly
when none of the attempts it owes is swallowed, or when it is rolled back.
-/

namespace Genjishimada.Tournaments

open Library Sdk Repository Services

variable {ε : Type}

/-! ## The accounts -/

/-- The message a row marked published stands for. -/
def rowReceipts (t : PendingTransition) : List Receipt :=
  if t.published then (rowReceipt t).toList else []

/-- The rollover an edition marked announced, or completed without having been
announced, stands for. -/
def editionReceipts (e : Edition) : List Receipt :=
  if e.startAnnounced then [.startOnly e.id]
  else if e.status = .completed then [.combined e.id]
  else []

/-- Everything the database has on record as handed over. -/
def settled (db : Db) : Multiset Receipt :=
  (db.pendingTransitions.rows.flatMap rowReceipts : List Receipt) +
    (db.editions.rows.flatMap editionReceipts : List Receipt)

/-- What the broker has received between two worlds. -/
def handed (w w' : World Db Event) : Multiset Receipt :=
  (w'.receipts receipt : Multiset Receipt) - (w.receipts receipt : Multiset Receipt)

/-! ## What the steps of a tick add to the accounts -/

theorem settled_of_onlyRewards {db db' : Db} (h : OnlyRewards db db') :
    settled db' = settled db := by
  rw [settled, settled, h.pendingTransitions_eq, h.editions_eq]

/-- Rewriting the row of one edition replaces its share of the accounts. -/
theorem settled_modify_edition {db db' : Db} {e : Edition} (f : Edition → Edition) (hf)
    (he : e ∈ db.editions.rows)
    (hdb' : db'.editions = db.editions.modify (fun s ↦ s.id = e.id) f hf)
    (hrows : db'.pendingTransitions.rows.flatMap rowReceipts =
      db.pendingTransitions.rows.flatMap rowReceipts) :
    settled db' + editionReceipts e = settled db + editionReceipts (f e) := by
  have hp : ∀ s ∈ db.editions.rows, decide (s.id = e.id) = true ↔ s = e := fun s hs ↦ by
    rw [decide_eq_true_iff]
    exact ⟨fun h ↦ Table.eq_of_key_eq hs he h, fun h ↦ h ▸ rfl⟩
  rw [settled, settled, hdb', hrows, add_assoc, Table.coe_flatMap_modify he hp hf, ← add_assoc]

/-- Draining an edition settles exactly the rollover it attempts. -/
theorem DrainStep.settled_eq {now : Int} {db db' : Db} {e : Edition} (h : DrainStep now db e db')
    (he : e ∈ db.editions.rows) (hs : e.status = .awaitingResults) :
    settled db' = settled db + editionSends db e := by
  obtain ⟨db₁, hr, rfl⟩ := h
  have hsends : editionSends db e = editionSends db₁ e := by
    rw [editionSends, editionSends, countInflightVerifications_congr hr.completions_eq hr.cycles_eq]
  rw [← hr.editions_eq] at he
  rw [← settled_of_onlyRewards hr, hsends]
  rcases drainEdition_cases now e db₁ with
    ⟨ha, hi, hd⟩ | ⟨ha, hi, hd⟩ | ⟨ha, hi, hd⟩ | ⟨ha, hi, hd⟩
  · have hmod : settled (drainEdition now e db₁) + _ = _ :=
      settled_modify_edition (fun e ↦ { e with startAnnounced := true }) (fun _ ↦ rfl) he
        (by rw [hd]; rfl) (by rw [hd]; rfl)
    simpa [editionReceipts, editionSends, ha, hi, hs] using hmod
  · have hmod : settled (drainEdition now e db₁) + _ = _ :=
      settled_modify_edition (fun e ↦ { e with status := .completed }) (fun _ ↦ rfl) he
        (by rw [hd]; rfl) (by rw [hd]; rfl)
    simpa [editionReceipts, editionSends, ha, hi, hs] using hmod
  · -- the new outbox row is unpublished and the edition was announced before
    have hrows : (drainEdition now e db₁).pendingTransitions.rows.flatMap rowReceipts =
        db₁.pendingTransitions.rows.flatMap rowReceipts := by
      rw [drainEdition_pendingTransitions]
      split
      · simp [rowReceipts, drainedRow]
      · rfl
    have hmod : settled (drainEdition now e db₁) + _ = _ :=
      settled_modify_edition (fun e ↦ { e with status := .completed }) (fun _ ↦ rfl) he
        (by rw [hd]; rfl) hrows
    simpa [editionReceipts, editionSends, ha] using hmod
  · rw [hd]
    simp [editionSends, ha]

/-- The drain of a tick settles exactly the rollovers it attempts. -/
theorem settled_of_drainRun {now : Int} {db db' : Db} {es : List Edition}
    (h : Run (DrainStep now) db es db') (hids : (es.map Edition.id).Nodup)
    (hes : ∀ e ∈ es, e ∈ db.editions.rows ∧ e.status = .awaitingResults) :
    settled db' = settled db + (es.flatMap (editionSends db) : List Receipt) := by
  induction h with
  | nil db => simp
  | cons hstep _ ih =>
      rename_i db db₁ db' e es hrun
      obtain ⟨he, hids⟩ := List.nodup_cons.mp hids
      have hne : ∀ e' ∈ es, e'.id ≠ e.id := fun e' he' heq ↦ he (heq ▸ List.mem_map_of_mem he')
      have hrest : ∀ e' ∈ es, e' ∈ db₁.editions.rows ∧ e'.status = .awaitingResults := by
        intro e' he'
        obtain ⟨hmem, hs⟩ := hes e' (List.mem_cons_of_mem _ he')
        have hget := (hstep.get?_edition (hne e' he')).trans (Table.get?_of_mem hmem)
        exact ⟨Table.mem_of_get? hget, hs⟩
      have hsends : es.flatMap (editionSends db₁) = es.flatMap (editionSends db) :=
        List.flatMap_congr fun e' he' ↦ by
          rw [editionSends, editionSends, hstep.inflight (hne e' he')]
      obtain ⟨hmem, hs⟩ := hes e List.mem_cons_self
      rw [ih hids hrest, hsends, hstep.settled_eq hmem hs, List.flatMap_cons, ← Multiset.coe_add,
        add_assoc]

/-- Marking a row published settles its message. -/
theorem PublishStep.settled_eq {db db' : Db} {t : PendingTransition} (h : PublishStep db t db')
    (ht : t ∈ db.pendingTransitions.rows) (hp : t.published = false) :
    settled db' = settled db + ((rowReceipt t).toList : List Receipt) := by
  obtain ⟨db₁, hr, rfl⟩ := h
  rw [← settled_of_onlyRewards hr, settled, settled]
  rw [← hr.pendingTransitions_eq] at ht
  have hone : ∀ s ∈ db₁.pendingTransitions.rows,
      decide (s.id = t.id ∧ (!s.published) = true) = true ↔ s = t := fun s hs ↦ by
    rw [decide_eq_true_iff]
    exact ⟨fun h ↦ Table.eq_of_key_eq hs ht h.1, fun h ↦ by rw [h]; exact ⟨rfl, by simp [hp]⟩⟩
  have hmod : ((markTransitionPublished t.id db₁).pendingTransitions.rows.flatMap rowReceipts :
      Multiset Receipt) + rowReceipts t = _ :=
    Table.coe_flatMap_modify (f := fun t : PendingTransition ↦ { t with published := true })
      ht hone fun _ ↦ rfl
  have hbefore : rowReceipts t = [] := by simp [rowReceipts, hp]
  have hafter : rowReceipts { t with published := true } = (rowReceipt t).toList := rfl
  rw [hbefore, hafter, Multiset.coe_nil, add_zero] at hmod
  rw [hmod]
  exact add_right_comm _ _ _

/-- The publishing half of a tick settles exactly the rows it attempts. -/
theorem settled_of_publishRun {db db' : Db} {rows : List PendingTransition}
    (h : Run PublishStep db rows db') (hids : (rows.map PendingTransition.id).Nodup)
    (hrows : ∀ t ∈ rows, t ∈ db.pendingTransitions.rows ∧ t.published = false) :
    settled db' = settled db + (rows.flatMap fun t ↦ (rowReceipt t).toList : List Receipt) := by
  induction h with
  | nil db => simp
  | cons hstep _ ih =>
      rename_i db db₁ db' t rows hrun
      obtain ⟨ht, hids⟩ := List.nodup_cons.mp hids
      have hrest : ∀ t' ∈ rows, t' ∈ db₁.pendingTransitions.rows ∧ t'.published = false := by
        intro t' ht'
        obtain ⟨hmem, hp⟩ := hrows t' (List.mem_cons_of_mem _ ht')
        exact ⟨hstep.mem_rows hmem fun heq ↦ ht (heq ▸ List.mem_map_of_mem ht'), hp⟩
      obtain ⟨hmem, hp⟩ := hrows t List.mem_cons_self
      rw [ih hids hrest, hstep.settled_eq hmem hp, List.flatMap_cons, ← Multiset.coe_add, add_assoc]

/-! ## Faithful ticks -/

/-- Nothing a tick marks as done is missing from what it hands over. -/
def Faithful (w w' : World Db Event) : Prop := settled w'.db ≤ settled w.db + handed w w'

instance (w w' : World Db Event) : Decidable (Faithful w w') :=
  inferInstanceAs (Decidable (_ ≤ _))

/-- A tick is faithful to its outbox exactly when it is rolled back, or none of the
attempts it owes is swallowed. -/
theorem publishPendingTransitions_faithful_iff (now : Int)
    (lockedEditions lockedTransitions : Nat → Bool) (w : World Db Event) :
    Faithful w (final ((publishPendingTransitions now lockedEditions lockedTransitions :
        Service Db Event ε _) w)) ↔
      (∃ t ∈ fetchUnpublishedTransitions lockedTransitions w.db, undecodable t = true) ∨
      Raises w.faults (attemptsDue lockedEditions lockedTransitions w.db) ∨
      ¬ Swallows w.faults (attemptsDue lockedEditions lockedTransitions w.db) := by
  by_cases hback : (∃ t ∈ fetchUnpublishedTransitions lockedTransitions w.db,
      undecodable t = true) ∨ Raises w.faults (attemptsDue lockedEditions lockedTransitions w.db)
  · obtain ⟨e, w', he, hdb⟩ := publishPendingTransitions_raises (ε := ε) now hback
    rw [he, final_error, Faithful, hdb]
    exact ⟨fun _ ↦ hback.imp_right .inl, fun _ ↦ Multiset.le_add_right _ _⟩
  · rw [not_or] at hback
    obtain ⟨hrows, hr⟩ := hback
    have hdecode : ∀ t ∈ fetchUnpublishedTransitions lockedTransitions w.db,
        undecodable t = false := fun t ht ↦ by
      simpa using fun hu ↦ hrows ⟨t, ht, hu⟩
    obtain ⟨w', db₁, hok, hdrain, hpublish, hb⟩ :=
      publishPendingTransitions_returns (ε := ε) now hdecode hr
    obtain ⟨_, _, hdue⟩ := rowsDue_of_drainRun lockedTransitions hdrain
      (nodup_fetchAwaitingResultsEditions _ _)
    have hsettled₁ := settled_of_drainRun hdrain (nodup_fetchAwaitingResultsEditions _ _)
      fun e he ↦ by
        obtain ⟨hmem, hs, _⟩ := mem_fetchAwaitingResultsEditions.mp he
        exact ⟨hmem, hs⟩
    have hsettled₂ := settled_of_publishRun hpublish (nodup_fetchUnpublishedTransitions _ _)
      fun t ht ↦ by
        obtain ⟨hmem, hp, _⟩ := mem_fetchUnpublishedTransitions.mp ht
        exact ⟨hmem, hp⟩
    let sends := (fetchAwaitingResultsEditions lockedEditions w.db).flatMap (editionSends w.db) ++
      (rowsDue w.db lockedTransitions db₁).flatMap fun t ↦ (rowReceipt t).toList
    have hlen : sends.length = attemptsDue lockedEditions lockedTransitions w.db := by
      rw [List.length_append, length_rowReceipts fun t ht ↦ (hdue t ht).elim (hdecode t) id,
        attemptsDue_eq lockedTransitions hdrain]
    have hsettled : settled w'.db = settled w.db + (sends : Multiset Receipt) := by
      rw [hsettled₂, hsettled₁, add_assoc, Multiset.coe_add]
    have hhanded : handed w w' = (delivered w.faults sends : Multiset Receipt) := by
      rw [handed, hb, ← Multiset.coe_add, add_tsub_cancel_left]
    rw [hok, final_ok, Faithful, hsettled, hhanded, add_le_add_iff_left, coe_le_delivered_iff, hlen]
    constructor
    · exact fun h ↦ .inr (.inr h.2)
    · rintro (h | h | h)
      · exact absurd h hrows
      · exact absurd h hr
      · exact ⟨hr, h⟩

/-- A bootstrap's start announcement, met by a broker that refuses the message. -/
def brokerDown : World Db Event where
  db :=
    { pendingTransitions := Table.empty.insert fun id ↦
        { id, cycleId := none, editionId := some 1, eventType := .editionRollover
          payload := encodeRollover { editionId := 1, results := [], started := [] }
          createdAt := 0 } }
  faults := [{ publish := some .amqpError }]

/-- The row is committed as published and the broker has nothing. -/
theorem brokerDown_not_faithful :
    let w' := final ((publishPendingTransitions 0 (fun _ ↦ false) (fun _ ↦ false) :
      Service Db Event Empty _) brokerDown)
    (w'.db.pendingTransitions.get? 1).map PendingTransition.published = some true ∧
      w'.broker = [] ∧ ¬ Faithful brokerDown w' := by
  decide +kernel

end Genjishimada.Tournaments
