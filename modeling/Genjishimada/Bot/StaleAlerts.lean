import Genjishimada.Bot.ChangeRequests

/-!
# Alerts of stale change requests

An alert is posted and then marked, by two calls, and the second may raise.  A request may be
resolved at any time, also between the moment at which it is read as stale and its alert.
-/

namespace Genjishimada.Bot

open Library Repository Services

/-! ## Marked alerts -/

section Marked

variable {db : ChangeRequestDb} {r : ChangeRequest} {threadId : Nat}

/-- The alert of the thread is marked. -/
def isAlerted (db : ChangeRequestDb) (threadId : Nat) : Bool :=
  db.rows.any fun r ↦ r.threadId = threadId ∧ r.alerted = true

theorem isAlerted_iff : isAlerted db threadId = true ↔
    ∃ r ∈ db.rows, r.threadId = threadId ∧ r.alerted = true := by
  simp [isAlerted]

theorem eq_of_threadId {r' : ChangeRequest} (hr : r ∈ db.rows) (hr' : r' ∈ db.rows)
    (h : r.threadId = r'.threadId) : r = r' :=
  List.inj_on_of_nodup_map db.threads hr hr' h

theorem isAlerted_markAlerted (hthread : ∃ r ∈ db.rows, r.threadId = threadId) (t : Nat) :
    isAlerted (db.markAlerted threadId) t = (isAlerted db t || decide (t = threadId)) := by
  rw [Bool.eq_iff_iff, Bool.or_eq_true, decide_eq_true_iff, isAlerted_iff, isAlerted_iff]
  constructor
  · rintro ⟨r', hr', hthread', halerted⟩
    obtain ⟨r, hr, rfl⟩ := mem_modify.mp hr'
    by_cases heq : r.threadId = threadId
    · rw [if_pos (decide_eq_true heq)] at hthread'
      exact .inr (hthread'.symm.trans heq)
    · rw [if_neg (by simpa using heq)] at hthread' halerted
      exact .inl ⟨r, hr, hthread', halerted⟩
  · rintro (⟨r, hr, rfl, halerted⟩ | rfl)
    · refine ⟨_, mem_modify.mpr ⟨r, hr, rfl⟩, ?_, ?_⟩ <;> split <;> simp [halerted]
    · obtain ⟨r, hr, rfl⟩ := hthread
      refine ⟨_, mem_modify.mpr ⟨r, hr, rfl⟩, ?_, ?_⟩ <;> simp

/-- An update that marks no alert. -/
theorem isAlerted_modify {p : ChangeRequest → Bool} {f : ChangeRequest → ChangeRequest} {hf}
    (halerted : ∀ r, (f r).alerted = r.alerted) (t : Nat) :
    isAlerted (db.modify p f hf) t = isAlerted db t := by
  rw [isAlerted, isAlerted, ChangeRequestDb.modify, List.any_map]
  refine congrArg (List.any db.rows) (funext fun r ↦ ?_)
  rw [Function.comp_apply]
  split
  · rw [hf, halerted]
  · rfl

end Marked

/-! ## Alerts -/

/-- The requests that are still to be alerted in this pass, with the time at which they were
read. -/
def AlertPhase.pending : AlertPhase → List (Nat × Int)
  | .alerting readAt rows => rows.map fun row ↦ (row.threadId, readAt)
  | .sent readAt row rows => (row :: rows).map fun row ↦ (row.threadId, readAt)
  | _ => []

/-- The request whose alert is posted and not marked yet. -/
def AlertPhase.sending : AlertPhase → List Nat
  | .sent _ row _ => [row.threadId]
  | _ => []

/-- At that time the request was two weeks old and not resolved. -/
def Overdue (s : RequestState) (p : Nat × Int) : Prop :=
  (∃ r ∈ s.db.rows, r.threadId = p.1 ∧ r.createdAt < p.2 - twoWeeks) ∧
    ∀ resolvedAt, (p.1, resolvedAt) ∈ s.resolutions → p.2 ≤ resolvedAt

/-- What holds at every moment. -/
structure AlertInv (s : RequestState) : Prop where
  count : ∀ t, (s.alerts.map Prod.fst).count t =
    (isAlerted s.db t).toNat + (s.unmarked.count t + s.phase.sending.count t)
  nodup : (s.phase.pending.map Prod.fst).Nodup
  unalerted : ∀ p ∈ s.phase.pending, isAlerted s.db p.1 = false
  overdue : ∀ p ∈ s.phase.pending ++ s.alerts, Overdue s p
  past : ∀ p ∈ s.phase.pending ++ s.alerts, p.2 ≤ s.clock
  known : ∀ q ∈ s.resolutions, q.1 ∈ s.db.rows.map ChangeRequest.threadId
  unresolved : ∀ r ∈ s.db.rows, r.resolved = false → ∀ q ∈ s.resolutions, q.1 ≠ r.threadId

section Alerts

variable {modmail : Nat} {s s' : RequestState} {l : Int × RequestLabel} {now : Int}

theorem alertInv_noRequests (clock : Int) (codes : List String) (users : List Nat) :
    AlertInv (noRequests clock codes users) := by
  constructor <;> simp [noRequests, AlertPhase.pending, AlertPhase.sending, isAlerted]

theorem AlertInv.tick (h : AlertInv s) (hclock : s.clock ≤ now) :
    AlertInv { s with clock := now } :=
  { h with past := fun p hp ↦ Int.le_trans (h.past p hp) hclock }

theorem Overdue.of_rows {p : Nat × Int} (h : Overdue s p)
    (hrows : ∀ r ∈ s.db.rows, ∃ r' ∈ s'.db.rows, r'.threadId = r.threadId ∧
      r'.createdAt = r.createdAt)
    (hresolutions : ∀ resolvedAt, (p.1, resolvedAt) ∈ s'.resolutions →
      (p.1, resolvedAt) ∈ s.resolutions ∨ p.2 ≤ resolvedAt) : Overdue s' p := by
  obtain ⟨⟨r, hr, hthread, hold⟩, hopen⟩ := h
  obtain ⟨r', hr', hthread', hcreated⟩ := hrows r hr
  refine ⟨⟨r', hr', hthread'.trans hthread, hcreated.symm ▸ hold⟩, fun resolvedAt hresolved ↦ ?_⟩
  exact (hresolutions resolvedAt hresolved).elim (hopen resolvedAt) id

/-- A request is added. -/
theorem AlertInv.append (h : AlertInv s) {db : ChangeRequestDb} {r : ChangeRequest}
    {addressed : Nat → List Nat} (hrows : db.rows = s.db.rows ++ [r])
    (hfresh : r.threadId ∉ s.db.rows.map ChangeRequest.threadId) (halerted : r.alerted = false) :
    AlertInv { s with db, addressed } := by
  have hsame : ∀ t, isAlerted db t = isAlerted s.db t := by
    intro t
    simp [isAlerted, hrows, halerted]
  have hmem : ∀ r ∈ s.db.rows, r ∈ db.rows := fun r hr ↦ hrows ▸ List.mem_append_left _ hr
  constructor
  · intro t
    rw [hsame]
    exact h.count t
  · exact h.nodup
  · intro p hp
    rw [hsame]
    exact h.unalerted p hp
  · intro p hp
    exact (h.overdue p hp).of_rows (fun r hr ↦ ⟨r, hmem r hr, rfl, rfl⟩) fun _ ↦ .inl
  · exact h.past
  · intro q hq
    obtain ⟨r, hr, hthread⟩ := List.mem_map.mp (h.known q hq)
    exact List.mem_map.mpr ⟨r, hmem r hr, hthread⟩
  · intro r' hr' hresolved q hq
    have hr' : r' ∈ db.rows := hr'
    rw [hrows, List.mem_append, List.mem_singleton] at hr'
    rcases hr' with hr' | rfl
    · exact h.unresolved r' hr' hresolved q hq
    · exact fun heq ↦ hfresh (heq ▸ h.known q hq)

theorem AlertInv.submit (h : AlertInv s) (threadId userId : Nat)
    (code content changeRequestType : String) (inGuild : Nat → Bool) (creators : List Nat) :
    AlertInv (s.submit modmail now threadId userId code content changeRequestType inGuild
      creators) := by
  rw [RequestState.submit]
  split
  · exact h
  · next db hcreate =>
    obtain ⟨hfresh, r, hrows, hthread, -, -, halerted⟩ := createChangeRequest_spec hcreate
    exact h.append hrows (hthread.symm ▸ hfresh) halerted

/-- The rows that an update leaves, where it does not matter to the alerts. -/
theorem exists_modify {db : ChangeRequestDb} {p : ChangeRequest → Bool}
    {f : ChangeRequest → ChangeRequest} (hf : ∀ r, (f r).threadId = r.threadId)
    (hcreated : ∀ r, (f r).createdAt = r.createdAt) :
    ∀ r ∈ db.rows, ∃ r' ∈ (db.modify p f hf).rows, r'.threadId = r.threadId ∧
      r'.createdAt = r.createdAt := by
  intro r hr
  refine ⟨_, mem_modify.mpr ⟨r, hr, rfl⟩, ?_⟩
  split
  · exact ⟨hf r, hcreated r⟩
  · exact ⟨rfl, rfl⟩

theorem threads_modify {db : ChangeRequestDb} {p : ChangeRequest → Bool}
    {f : ChangeRequest → ChangeRequest} (hf : ∀ r, (f r).threadId = r.threadId) :
    (db.modify p f hf).rows.map ChangeRequest.threadId = db.rows.map ChangeRequest.threadId := by
  rw [ChangeRequestDb.modify, List.map_map]
  refine List.map_congr_left fun r _ ↦ ?_
  rw [Function.comp_apply]
  split
  · exact hf r
  · rfl

/-- What holds of the threads of the unresolved requests still does. -/
theorem forall_unresolved {db : ChangeRequestDb} {p : ChangeRequest → Bool}
    {f : ChangeRequest → ChangeRequest} {P : Nat → Prop}
    (hf : ∀ r, (f r).threadId = r.threadId)
    (hopen : ∀ r, (f r).resolved = false → r.resolved = false)
    (h : ∀ r ∈ db.rows, r.resolved = false → P r.threadId) :
    ∀ r' ∈ db.rows.map fun r ↦ if p r then f r else r, r'.resolved = false → P r'.threadId := by
  intro r' hr' hunresolved
  obtain ⟨r, hr, hthread, hrow⟩ := modify_cases hr' hf
  rw [hthread]
  rcases hrow with ⟨rfl, -⟩ | ⟨rfl, -⟩
  · exact h r hr (hopen r hunresolved)
  · exact h _ hr hunresolved

/-- An update that marks no alert, and perhaps a request that is resolved by it. -/
theorem AlertInv.modify (h : AlertInv s) {p : ChangeRequest → Bool}
    {f : ChangeRequest → ChangeRequest} {db : ChangeRequestDb} {resolutions : List (Nat × Int)}
    (hrows : db.rows = s.db.rows.map fun r ↦ if p r then f r else r)
    (hf : ∀ r, (f r).threadId = r.threadId) (halerted : ∀ r, (f r).alerted = r.alerted)
    (hcreated : ∀ r, (f r).createdAt = r.createdAt)
    (hopen : ∀ r, (f r).resolved = false → r.resolved = false)
    (hresolutions : ∀ q ∈ resolutions, q ∈ s.resolutions ∨
      q.1 ∈ s.db.rows.map ChangeRequest.threadId ∧ s.clock ≤ q.2 ∧
        ∀ r ∈ db.rows, r.resolved = false → q.1 ≠ r.threadId) :
    AlertInv { s with db, resolutions } := by
  have hrows : db.rows = (s.db.modify p f hf).rows := hrows
  have hsame : ∀ t, isAlerted db t = isAlerted s.db t := by
    intro t
    rw [isAlerted, hrows]
    exact isAlerted_modify halerted t
  constructor
  · intro t
    rw [hsame]
    exact h.count t
  · exact h.nodup
  · intro q hq
    rw [hsame]
    exact h.unalerted q hq
  · intro q hq
    refine (h.overdue q hq).of_rows ?_ fun resolvedAt hresolved ↦ ?_
    · rw [hrows]
      exact exists_modify hf hcreated
    · exact (hresolutions _ hresolved).imp_right fun hnew ↦ Int.le_trans (h.past q hq) hnew.2.1
  · exact h.past
  · intro q hq
    rw [hrows, threads_modify hf]
    exact (hresolutions q hq).elim (h.known q) And.left
  · intro r' hr' hunresolved q hq
    rcases hresolutions q hq with hold | hnew
    · have hmem : r' ∈ db.rows := hr'
      rw [hrows] at hmem
      exact forall_unresolved (P := fun t ↦ q.1 ≠ t) hf hopen
        (fun r hr hopen ↦ h.unresolved r hr hopen q hold) r' hmem hunresolved
    · exact hnew.2.2 r' hr' hunresolved

theorem AlertInv.resolve (h : AlertInv s) (hclock : s.clock ≤ now) (threadId : Nat) :
    AlertInv (s.resolve now threadId) := by
  refine h.modify rfl (fun _ ↦ rfl) (fun _ ↦ rfl) (fun _ ↦ rfl) (fun _ ↦ Bool.noConfusion)
    fun q hq ↦ ?_
  split at hq
  · next hthread =>
    rcases List.mem_cons.mp hq with rfl | hq
    · refine .inr ⟨hthread, hclock, fun r' hr' hunresolved heq ↦ ?_⟩
      obtain ⟨r, -, hthread', hrow⟩ := modify_cases hr' fun _ ↦ rfl
      rcases hrow with ⟨rfl, -⟩ | ⟨rfl, hother⟩
      · cases hunresolved
      · exact of_decide_eq_false hother heq.symm
    · exact .inl hq
  · exact .inl hq

theorem AlertInv.recode (h : AlertInv s) (old : String) (new : Option String) :
    AlertInv { s with db := s.db.recode old new } :=
  h.modify rfl (fun _ ↦ rfl) (fun _ ↦ rfl) (fun _ ↦ rfl) (fun _ hresolved ↦ hresolved) fun _ ↦ .inl

/-- Some alerts are given up. -/
theorem AlertInv.drop (h : AlertInv s) {phase : AlertPhase}
    (hpending : phase.pending.Sublist s.phase.pending)
    (hsending : phase.sending = s.phase.sending) : AlertInv { s with phase } := by
  have hsub : phase.pending ++ s.alerts ⊆ s.phase.pending ++ s.alerts :=
    List.append_subset.mpr
      ⟨fun p hp ↦ List.mem_append_left _ (hpending.subset hp), List.subset_append_right _ _⟩
  constructor
  · intro t
    rw [hsending]
    exact h.count t
  · exact h.nodup.sublist (hpending.map Prod.fst)
  · exact fun p hp ↦ h.unalerted p (hpending.subset hp)
  · exact fun p hp ↦ h.overdue p (hsub hp)
  · exact fun p hp ↦ h.past p (hsub hp)
  · exact h.known
  · exact h.unresolved

/-- The stale requests are read. -/
theorem AlertInv.fetch (h : AlertInv s) (hclock : s.clock = now) (hphase : s.phase = .idle) :
    AlertInv { s with phase := .alerting now (s.db.fetchStaleRequests now) } := by
  have hpending : (AlertPhase.alerting now (s.db.fetchStaleRequests now)).pending =
      (s.db.rows.filter (ChangeRequestDb.isStale now)).map fun r ↦ (r.threadId, now) :=
    List.map_map
  have hstale : ∀ p ∈ (AlertPhase.alerting now (s.db.fetchStaleRequests now)).pending,
      ∃ r ∈ s.db.rows, (r.threadId, now) = p ∧ r.createdAt < now - twoWeeks ∧
        r.alerted = false ∧ r.resolved = false := by
    intro p hp
    rw [hpending] at hp
    obtain ⟨r, hr, rfl⟩ := List.mem_map.mp hp
    rw [List.mem_filter, ChangeRequestDb.isStale, decide_eq_true_iff] at hr
    exact ⟨r, hr.1, rfl, hr.2⟩
  constructor
  · intro t
    have hcount := h.count t
    rw [hphase] at hcount
    exact hcount
  · rw [hpending, List.map_map]
    exact s.db.threads.sublist (List.filter_sublist.map _)
  · intro p hp
    obtain ⟨r, hr, rfl, -, halerted, -⟩ := hstale p hp
    rw [Bool.eq_false_iff, ne_eq, isAlerted_iff]
    rintro ⟨r', hr', hthread, halerted'⟩
    rw [eq_of_threadId hr' hr hthread, halerted] at halerted'
    cases halerted'
  · intro p hp
    rcases List.mem_append.mp hp with hp | hp
    · obtain ⟨r, hr, rfl, hold, -, hunresolved⟩ := hstale p hp
      exact ⟨⟨r, hr, rfl, hold⟩,
        fun _ hresolved ↦ absurd rfl (h.unresolved r hr hunresolved _ hresolved)⟩
    · exact h.overdue p (List.mem_append_right _ hp)
  · intro p hp
    rcases List.mem_append.mp hp with hp | hp
    · obtain ⟨r, -, rfl, -⟩ := hstale p hp
      exact Int.le_of_eq hclock.symm
    · exact h.past p (List.mem_append_right _ hp)
  · exact h.known
  · exact h.unresolved

/-- The alert of the first request is posted. -/
theorem AlertInv.send (h : AlertInv s) {readAt : Int} {row : StaleChangeRequest}
    {rows : List StaleChangeRequest} (hphase : s.phase = .alerting readAt (row :: rows)) :
    AlertInv { s with
      phase := .sent readAt row rows
      alerts := (row.threadId, readAt) :: s.alerts } := by
  have hpending : (AlertPhase.sent readAt row rows).pending = s.phase.pending := by
    rw [hphase]
    rfl
  have hsub : (AlertPhase.sent readAt row rows).pending ++ (row.threadId, readAt) :: s.alerts ⊆
      s.phase.pending ++ s.alerts := by
    rw [hpending, List.append_subset, List.cons_subset]
    refine ⟨List.subset_append_left _ _, List.mem_append_left _ ?_, List.subset_append_right _ _⟩
    rw [← hpending]
    exact List.mem_cons_self
  constructor
  · intro t
    have hcount := h.count t
    rw [hphase] at hcount
    simp only [AlertPhase.sending, List.count_nil, Nat.add_zero] at hcount
    simp only [List.map_cons, AlertPhase.sending, List.count_cons, List.count_nil, hcount]
    omega
  · rw [hpending]
    exact h.nodup
  · rw [hpending]
    exact h.unalerted
  · exact fun p hp ↦ h.overdue p (hsub hp)
  · exact fun p hp ↦ h.past p (hsub hp)
  · exact h.known
  · exact h.unresolved

/-- The alert that is posted is marked. -/
theorem AlertInv.mark (h : AlertInv s) {readAt : Int} {row : StaleChangeRequest}
    {rows : List StaleChangeRequest} (hphase : s.phase = .sent readAt row rows) :
    AlertInv { s with
      phase := .alerting readAt rows
      db := s.db.markAlerted row.threadId } := by
  have hpending : s.phase.pending =
      (row.threadId, readAt) :: (AlertPhase.alerting readAt rows).pending := by
    rw [hphase]
    rfl
  have hfirst : (row.threadId, readAt) ∈ s.phase.pending := hpending ▸ List.mem_cons_self
  have hrest : ∀ p ∈ (AlertPhase.alerting readAt rows).pending, p ∈ s.phase.pending :=
    fun p hp ↦ hpending ▸ List.mem_cons_of_mem _ hp
  have hnodup := h.nodup
  rw [hpending, List.map_cons, List.nodup_cons] at hnodup
  obtain ⟨hnot, hnodup⟩ := hnodup
  obtain ⟨⟨r, hr, hthread, -⟩, -⟩ := h.overdue _ (List.mem_append_left _ hfirst)
  have halerted := isAlerted_markAlerted ⟨r, hr, hthread⟩
  have hsub : (AlertPhase.alerting readAt rows).pending ++ s.alerts ⊆
      s.phase.pending ++ s.alerts :=
    List.append_subset.mpr
      ⟨fun p hp ↦ List.mem_append_left _ (hrest p hp), List.subset_append_right _ _⟩
  constructor
  · intro t
    have hcount := h.count t
    have hfalse := h.unalerted _ hfirst
    rw [hphase] at hcount
    rw [halerted]
    by_cases ht : t = row.threadId
    · subst ht
      simpa [AlertPhase.sending, hfalse, Nat.add_comm] using hcount
    · have hne : row.threadId ≠ t := fun heq ↦ ht heq.symm
      simpa [AlertPhase.sending, ht, hne, List.count_cons] using hcount
  · exact hnodup
  · intro p hp
    have hmem := List.mem_map_of_mem (f := Prod.fst) hp
    have hne : p.1 ≠ row.threadId := fun heq ↦ hnot (heq ▸ hmem)
    rw [halerted, h.unalerted p (hrest p hp), decide_eq_false hne]
    rfl
  · intro p hp
    exact (h.overdue p (hsub hp)).of_rows
      (exists_modify (f := fun r ↦ { r with alerted := true }) (fun _ ↦ rfl) fun _ ↦ rfl)
      fun _ ↦ .inl
  · exact fun p hp ↦ h.past p (hsub hp)
  · rw [ChangeRequestDb.markAlerted, threads_modify]
    exact h.known
  · exact forall_unresolved (f := fun r ↦ { r with alerted := true })
      (P := fun t ↦ ∀ q ∈ s.resolutions, q.1 ≠ t) (fun _ ↦ rfl) (fun _ hopen ↦ hopen) h.unresolved

/-- The call that marks the alert raises, and has not gone through. -/
theorem AlertInv.lose (h : AlertInv s) {readAt : Int} {row : StaleChangeRequest}
    {rows : List StaleChangeRequest} (hphase : s.phase = .sent readAt row rows) :
    AlertInv { s with phase := .stopped, unmarked := row.threadId :: s.unmarked } := by
  constructor
  · intro t
    have hcount := h.count t
    rw [hphase] at hcount
    simp only [AlertPhase.sending, List.count_cons, List.count_nil] at hcount ⊢
    omega
  · exact List.nodup_nil
  · exact fun _ hp ↦ absurd hp List.not_mem_nil
  · exact fun p hp ↦ h.overdue p (List.mem_append_right _ hp)
  · exact fun p hp ↦ h.past p (List.mem_append_right _ hp)
  · exact h.known
  · exact h.unresolved

theorem AlertInv.loop (h : AlertInv s) (hclock : s.clock = now) {label : LoopLabel}
    (hstep : s.loop now label = some s') : AlertInv s' := by
  cases label with
  | fetch =>
      rw [RequestState.loop] at hstep
      split at hstep <;> cases hstep
      next hphase => exact h.fetch hclock hphase
  | skip =>
      rw [RequestState.loop] at hstep
      split at hstep <;> cases hstep
      next hphase =>
        refine h.drop ?_ ?_ <;> rw [hphase]
        · exact List.sublist_cons_self _ _
        · rfl
  | send =>
      rw [RequestState.loop] at hstep
      split at hstep <;> cases hstep
      next hphase => exact h.send hphase
  | mark =>
      rw [RequestState.loop] at hstep
      split at hstep <;> cases hstep
      next hphase => exact h.mark hphase
  | finish =>
      rw [RequestState.loop] at hstep
      split at hstep <;> cases hstep
      next hphase => exact h.drop (List.nil_sublist _) (hphase ▸ rfl)
  | fail marked =>
      rw [RequestState.loop] at hstep
      split at hstep
      · next hphase =>
        split at hstep <;> cases hstep
        · exact (h.mark hphase).drop (List.nil_sublist _) rfl
        · exact h.lose hphase
      · next hphase =>
        cases hstep
        refine h.drop (List.nil_sublist _) ?_
        cases hsent : s.phase with
        | sent readAt row rows => exact absurd hsent (hphase readAt row rows)
        | idle | alerting | stopped => rfl
  | restart =>
      rw [RequestState.loop] at hstep
      split at hstep <;> cases hstep
      next hphase => exact h.drop (List.nil_sublist _) (hphase ▸ rfl)

theorem AlertInv.step (h : AlertInv s) (hstep : requestStep modmail s l = some s') :
    AlertInv s' := by
  obtain ⟨now, label⟩ := l
  rw [requestStep] at hstep
  split at hstep
  · cases hstep
  · next hclock =>
    have hnow : AlertInv { s with clock := now } := h.tick (Int.not_lt.mp hclock)
    cases label with
    | submit threadId userId code content changeRequestType inGuild creators =>
        cases hstep
        exact hnow.submit threadId userId code content changeRequestType inGuild creators
    | resolve threadId =>
        cases hstep
        exact hnow.resolve (Int.le_refl _) threadId
    | recode old new =>
        cases hstep
        exact hnow.recode old new
    | loop label => exact hnow.loop rfl hstep

end Alerts

/-- A request is alerted once, and once more for every time that its alert could not be marked, and
only when it was two weeks old and not resolved. -/
theorem alerts_after {modmail : Nat} {clock : Int} {codes : List String} {users : List Nat}
    {s : RequestState} {ls : List (Int × RequestLabel)}
    (hrun : Run (ofStep (requestStep modmail)) (noRequests clock codes users) ls s) :
    (∀ t, isAlerted s.db t = true →
      (s.alerts.map Prod.fst).count t = 1 + s.unmarked.count t) ∧
    (∀ t, (s.alerts.map Prod.fst).count t ≤ 1 + s.unmarked.count t) ∧
    ∀ p ∈ s.alerts, Overdue s p := by
  have h : AlertInv s :=
    hrun.invariant (fun _ _ _ h hstep ↦ h.step hstep) (alertInv_noRequests clock codes users)
  have hsending : ∀ t, s.phase.sending.count t ≤ 1 ∧
      (isAlerted s.db t = true → s.phase.sending.count t = 0) := by
    intro t
    cases hphase : s.phase with
    | idle | alerting | stopped => exact ⟨Nat.zero_le _, fun _ ↦ rfl⟩
    | sent readAt row rows =>
        refine ⟨List.count_le_length, fun halerted ↦ List.count_eq_zero.mpr fun hmem ↦ ?_⟩
        have hpending : (row.threadId, readAt) ∈ s.phase.pending := hphase ▸ List.mem_cons_self
        have hunalerted := h.unalerted _ hpending
        rw [List.mem_singleton.mp hmem, hunalerted] at halerted
        cases halerted
  refine ⟨fun t halerted ↦ ?_, fun t ↦ ?_, fun p hp ↦ h.overdue p (List.mem_append_right _ hp)⟩
  · rw [h.count, halerted, (hsending t).2 halerted]
    rfl
  · rw [h.count]
    have hone := (hsending t).1
    cases halerted : isAlerted s.db t with
    | true =>
        rw [(hsending t).2 halerted]
        exact Nat.le_refl _
    | false =>
        simp only [Bool.toNat_false]
        omega

/-- The alert is posted again. -/
theorem alerts_after_first : ∃ s,
    Run (ofStep (requestStep 9)) (noRequests 0 ["AAAA"] [5]) firstRequests s ∧
      (s.alerts.map Prod.fst).count 1 = 2 := by
  obtain ⟨s, hrun, hrows, -, hunmarked⟩ := run_firstRequests
  refine ⟨s, hrun, ((alerts_after hrun).1 1 ?_).trans (by rw [hunmarked]; rfl)⟩
  have hmem : (1, some "AAAA", true) ∈ s.db.rows.map fun r ↦ (r.threadId, r.code, r.alerted) :=
    hrows ▸ List.mem_cons_self
  obtain ⟨r, hr, heq⟩ := List.mem_map.mp hmem
  exact isAlerted_iff.mpr ⟨r, hr, congrArg Prod.fst heq, congrArg (fun row ↦ row.2.2) heq⟩

end Genjishimada.Bot
