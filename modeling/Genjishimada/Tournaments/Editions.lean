import Genjishimada.Services.Tournament
import Genjishimada.Tournaments.Transitions

/-!
# Editions and their cycles

Bootstraps, ticks of the cron and the pause switch, interleaved.  A tick is one
transaction behind an advisory lock.  A bootstrap first reads whether an edition is
active and writes later in the same transaction, and nothing keeps another bootstrap
or a tick from committing in between.

The editions stay aligned exactly when no bootstrap writes while an edition is
active.
-/

namespace Genjishimada.Tournaments

open Library Sdk Repository Migrations Services

/-! ## The machine -/

/-- The database, the number of bootstraps that have passed their guard and not
written yet, and the rotations of the cron so far, as the ids of the edition closed
and the edition opened. -/
structure EditionState where
  db : Db
  bootstraps : Nat := 0
  rotations : List (Nat × Nat) := []

inductive EditionLabel where
  /-- A bootstrap looks for an active edition. -/
  | guard
  /-- A bootstrap that found none writes and commits, or rolls back. -/
  | insert (zones : TimeZones) (now : Int) (random : Nat → Shuffle CoreMap)
  | pause (paused : Bool)
  | tick (lockFree : Bool) (now : Int) (random : Nat → Shuffle CoreMap)

/-- The rotation a tick makes, if it makes one. -/
def rotation (lockFree : Bool) (now : Int) (db : Db) : List (Nat × Nat) :=
  if lockFree && !db.config.transitionsPaused then
    (dueEdition now db).toList.map fun e ↦ (e.id, db.editions.nextId)
  else []

def editionStep (s : EditionState) : EditionLabel → Option EditionState
  | .guard =>
      match bootstrapGuard { db := s.db } with
      | .ok _ _ => some { s with bootstraps := s.bootstraps + 1 }
      | .error _ _ => some s
  | .insert zones now random =>
      if s.bootstraps = 0 then none
      else
        some { s with
          db := (final (inTransaction (bootstrapInsert zones now random) { db := s.db })).db
          bootstraps := s.bootstraps - 1 }
  | .pause paused => some { s with db := setTransitionsPaused paused s.db }
  | .tick lockFree now random =>
      some { s with
        db := processEditionTransitions lockFree now random s.db
        rotations := s.rotations ++ rotation lockFree now s.db }

/-! ## Aligned editions -/

/-- The edition `n` starts exactly where the edition `p` ends. -/
def Contiguous (db : Db) (p n : Nat) : Prop :=
  ∃ prev next, db.editions.get? p = some prev ∧ db.editions.get? n = some next ∧
    next.startedAt = prev.endsAt

/-- At most one edition is active, a category has at most one active cycle, and an
active child cycle starts with its edition. -/
structure OneRunning (db : Db) : Prop where
  edition_unique : ∀ e ∈ db.editions.rows, ∀ e' ∈ db.editions.rows,
    e.status = .active → e'.status = .active → e = e'
  cycle_unique : ∀ cy ∈ db.cycles.rows, ∀ cy' ∈ db.cycles.rows,
    cy.status = .active → cy'.status = .active → cy.categoryId = cy'.categoryId → cy = cy'
  starts : ∀ cy ∈ db.cycles.rows, cy.status = .active →
    ∀ e ∈ db.editions.rows, cy.editionId = some e.id → cy.startedAt = some e.startedAt

/-- Besides, the rotations so far are contiguous. -/
structure Aligned (s : EditionState) : Prop extends OneRunning s.db where
  contiguous : ∀ r ∈ s.rotations, Contiguous s.db r.1 r.2

/-- Besides, every active cycle is a child of an active edition. -/
structure EditionInv (s : EditionState) : Prop extends Aligned s where
  owned : ∀ cy ∈ s.db.cycles.rows, cy.status = .active →
    ∃ e ∈ s.db.editions.rows, e.status = .active ∧ cy.editionId = some e.id

/-- A map for the category exists. -/
def HasMap (db : Db) (cat : Category) : Prop :=
  ∃ m ∈ db.maps.rows, selectable cat.difficulties m = true

/-- A bootstrap writes, with a map for every active category, while an edition is
active. -/
def Collides (s : EditionState) (l : EditionLabel) : Prop :=
  (∃ zones now random, l = .insert zones now random) ∧
    (∃ e ∈ s.db.editions.rows, e.status = .active) ∧
    ∀ cat ∈ s.db.categories.rows, cat.isActive = true → HasMap s.db cat

/-! ## Edition times -/

/-- No edition is removed or moved in time. -/
def TimesKept (db db' : Db) : Prop :=
  ∀ id e, db.editions.get? id = some e →
    ∃ e', db'.editions.get? id = some e' ∧ e'.startedAt = e.startedAt ∧ e'.endsAt = e.endsAt

namespace TimesKept

variable {a b c : Db}

theorem of_eq (h : b.editions = a.editions) : TimesKept a b :=
  fun id e he ↦ ⟨e, by rw [h, he], rfl, rfl⟩

theorem trans (h : TimesKept a b) (h' : TimesKept b c) : TimesKept a c := by
  intro id e he
  obtain ⟨e₁, h₁, hs₁, hn₁⟩ := h id e he
  obtain ⟨e₂, h₂, hs₂, hn₂⟩ := h' id e₁ h₁
  exact ⟨e₂, h₂, hs₂.trans hs₁, hn₂.trans hn₁⟩

theorem contiguous (h : TimesKept a b) {p n : Nat} (hc : Contiguous a p n) : Contiguous b p n := by
  obtain ⟨prev, next, hprev, hnext, heq⟩ := hc
  obtain ⟨prev', hprev', _, hend⟩ := h p prev hprev
  obtain ⟨next', hnext', hstart, _⟩ := h n next hnext
  exact ⟨prev', next', hprev', hnext', by rw [hstart, heq, hend]⟩

theorem createEdition (startedAt endsAt : Int) (db : Db) :
    TimesKept db (createEdition startedAt endsAt db).2 := by
  intro id e he
  have hid : id ≠ db.editions.nextId := (Table.lt_nextId_of_get? he).ne
  exact ⟨e, by simp [Repository.createEdition, hid, he], rfl, rfl⟩

theorem closeEdition (editionId : Nat) (db : Db) : TimesKept db (closeEdition editionId db) := by
  intro id e he
  refine ⟨if e.id = editionId then { e with status := .awaitingResults } else e, ?_, ?_⟩
  · simp [Migrations.closeEdition, awaitResults, finalizeChildren, he]
  · split <;> exact ⟨rfl, rfl⟩

end TimesKept

/-! ## Opening and closing an edition -/

section Open

variable {db : Db} {cats : List Category}

/-- Nothing is running. -/
def Idle (db : Db) : Prop :=
  (∀ e ∈ db.editions.rows, e.status ≠ .active) ∧ ∀ cy ∈ db.cycles.rows, cy.status ≠ .active

/-- An edition is opened while nothing is running, with at most one cycle per category. -/
theorem editionInv_open {db₁ db₂ : Db} {startedAt endsAt : Int} {rotations : List (Nat × Nat)}
    (bootstraps : Nat) (hidle : Idle db) (hcats : (cats.map Category.id).Nodup)
    (heditions : db₁.editions = (createEdition startedAt endsAt db).2.editions)
    (hcycles : db₁.cycles = db.cycles)
    (hrun : Run (ChildStep db.editions.nextId startedAt) db₁ cats db₂)
    (hrotations : ∀ r ∈ rotations, Contiguous db₂ r.1 r.2) :
    EditionInv { db := db₂, bootstraps, rotations } := by
  have heds : db₂.editions = (createEdition startedAt endsAt db).2.editions := by
    rw [childRun_eq hrun]
    exact heditions
  have hactive : ∀ e ∈ db₂.editions.rows, e.status = .active →
      e = { id := db.editions.nextId, startedAt, endsAt } := fun e he hs ↦ by
    rw [heds] at he
    exact (List.mem_append.mp he).elim (fun h ↦ absurd hs (hidle.1 e h)) List.mem_singleton.mp
  have hnew : { id := db.editions.nextId, startedAt, endsAt } ∈ db₂.editions.rows := by
    rw [heds]
    exact List.mem_append_right _ (List.mem_singleton_self _)
  obtain ⟨new, hrows, hsub, hchildren⟩ := childRun_rows hrun
  have hmem : ∀ cy ∈ db₂.cycles.rows, cy.status = .active → cy ∈ new := fun cy hcy hs ↦ by
    rw [hrows, List.mem_append, hcycles] at hcy
    exact hcy.resolve_left fun hold ↦ hidle.2 cy hold hs
  refine ⟨⟨⟨fun e he e' he' hs hs' ↦ ?_, fun cy hcy cy' hcy' hs hs' hcat ↦ ?_,
    fun cy hcy hs e he hid ↦ ?_⟩, hrotations⟩, fun cy hcy hs ↦ ?_⟩
  · rw [hactive e he hs, hactive e' he' hs']
  · exact List.inj_on_of_nodup_map (hcats.sublist hsub) (hmem cy hcy hs) (hmem cy' hcy' hs') hcat
  · obtain ⟨_, _, hed, hst⟩ := hchildren cy (hmem cy hcy hs)
    have hkey : key e = db.editions.nextId := Option.some.inj (hid.symm.trans hed)
    rw [hst, Table.eq_of_key_eq he hnew hkey]
  · obtain ⟨_, _, hed, _⟩ := hchildren cy (hmem cy hcy hs)
    exact ⟨_, hnew, rfl, hed⟩

/-- After the one active edition is closed nothing is running. -/
theorem idle_closeEdition {s : EditionState} (hs : EditionInv s) {e : Edition}
    (he : e ∈ s.db.editions.rows) (hactive : e.status = .active) :
    Idle (closeEdition e.id s.db) := by
  constructor
  · intro e' he'
    obtain ⟨e₀, he₀, rfl⟩ := List.mem_map.mp he'
    split
    · simp
    · rename_i hne
      intro hs₀
      refine hne ?_
      rw [hs.edition_unique e₀ he₀ e he hs₀ hactive]
      exact decide_eq_true rfl
  · intro cy hcy
    obtain ⟨cy₀, hcy₀, rfl⟩ := List.mem_map.mp hcy
    split
    · simp
    · rename_i hne
      intro hs₀
      obtain ⟨e', he', hs', hid⟩ := hs.owned cy₀ hcy₀ hs₀
      refine hne (decide_eq_true ⟨?_, .inl hs₀⟩)
      rw [hid, hs.edition_unique e' he' e he hs' hactive]

theorem EditionInv.of_idle {s : EditionState} (h : Idle s.db)
    (hrotations : ∀ r ∈ s.rotations, Contiguous s.db r.1 r.2) : EditionInv s where
  edition_unique := fun e he _ _ hs _ ↦ absurd hs (h.1 e he)
  cycle_unique := fun cy hcy _ _ hs _ _ ↦ absurd hs (h.2 cy hcy)
  starts := fun cy hcy hs _ _ _ ↦ absurd hs (h.2 cy hcy)
  contiguous := hrotations
  owned := fun cy hcy hs ↦ absurd hs (h.2 cy hcy)

end Open

/-! ## What a bootstrap writes -/

section Bootstrap

variable {now : Int} {w : World Db Event}

theorem code_of_selectable {difficulties : List DifficultyTop} {m : CoreMap}
    (h : selectable difficulties m = true) : m.code ≠ none := by
  rw [selectable, decide_eq_true_iff] at h
  exact h.2.2.1

/-- The fallback selects a map that may be used. -/
theorem selectable_of_fetchLeastRecentlyUsedMap {difficulties : List DifficultyTop} {db : Db}
    {m : CoreMap} (h : fetchLeastRecentlyUsedMap difficulties db = some m) :
    m ∈ db.maps.rows ∧ selectable difficulties m = true := by
  obtain ⟨⟨m', start⟩, hhead, rfl⟩ := Option.map_eq_some_iff.mp h
  obtain ⟨m'', hm'', huse⟩ := List.mem_flatMap.mp (mem_orderBy.mp (List.mem_of_head? hhead))
  have hm' : m' = m'' := by
    rw [usesOf] at huse
    split at huse
    · exact congrArg Prod.fst (List.mem_singleton.mp huse)
    · obtain ⟨cy, _, hcy⟩ := List.mem_map.mp huse
      exact (congrArg Prod.fst hcy).symm
  rw [hm']
  exact Table.mem_select.mp hm''

/-- The fallback finds a map exactly when the category has one. -/
theorem fetchLeastRecentlyUsedMap_isSome_iff (cat : Category) (db : Db) :
    (fetchLeastRecentlyUsedMap cat.difficulties db).isSome ↔ HasMap db cat := by
  have huses (m : CoreMap) : usesOf db m ≠ [] := by
    rw [usesOf]
    split <;> simp_all
  rw [fetchLeastRecentlyUsedMap, Option.isSome_map, List.isSome_head?, HasMap]
  rw [ne_eq, ← List.length_eq_zero_iff, length_orderBy, List.length_eq_zero_iff]
  simp only [List.flatMap_eq_nil_iff, huses, imp_false, not_forall, not_not,
    Table.mem_select]

variable (now w) in
/-- A map is selected exactly when the category has one. -/
theorem selectMapFor_cases (cat : Category) (config : Config) (excludeMapIds : List Nat)
    (random : Shuffle CoreMap) :
    (HasMap w.db cat ∧ ∃ m, m ∈ w.db.maps.rows ∧ selectable cat.difficulties m = true ∧
      selectMapFor cat config excludeMapIds now random w = .ok m w) ∨
    ¬ HasMap w.db cat ∧ ∃ e, selectMapFor cat config excludeMapIds now random w = .error e w := by
  rw [selectMapFor, query_bind_apply]
  cases heligible : fetchEligibleMaps cat.difficulties config.blacklistWeeks excludeMapIds now random
      w.db with
  | cons m ms =>
      have hm : m ∈ fetchEligibleMaps cat.difficulties config.blacklistWeeks excludeMapIds now random
          w.db := by
        rw [heligible]
        exact List.mem_cons_self
      rw [fetchEligibleMaps, Shuffle.mem_order, Table.mem_select, decide_eq_true_iff] at hm
      exact .inl ⟨⟨m, hm.1, hm.2.1⟩, m, hm.1, hm.2.1, rfl⟩
  | nil =>
      have hlru := fetchLeastRecentlyUsedMap_isSome_iff cat w.db
      have hquery : (query (fetchLeastRecentlyUsedMap cat.difficulties) : Tournament _) w =
          .ok (fetchLeastRecentlyUsedMap cat.difficulties w.db) w := rfl
      cases hfound : fetchLeastRecentlyUsedMap cat.difficulties w.db with
      | some m =>
          obtain ⟨hm, hselectable⟩ := selectable_of_fetchLeastRecentlyUsedMap hfound
          rw [hfound] at hlru hquery
          exact .inl ⟨hlru.mp rfl, m, hm, hselectable, bind_of_ok hquery⟩
      | none =>
          rw [hfound] at hlru hquery
          exact .inr ⟨fun h ↦ absurd (hlru.mpr h) (by decide), _, bind_of_ok hquery⟩

variable (now) in
/-- The loop over the categories creates their children, or meets a category without
a map. -/
theorem bootstrapChildren_cases (edition : Edition) (config : Config)
    (random : Nat → Shuffle CoreMap) (cats : List Category) (w : World Db Event) :
    ((∀ cat ∈ cats, HasMap w.db cat) ∧ ∃ started db',
      cats.mapM (bootstrapChild edition config now random) w = .ok started { w with db := db' } ∧
      (∀ event ∈ started, event.mapCode.isSome) ∧
      Run (ChildStep edition.id edition.startedAt) w.db cats db') ∨
    (¬ ∀ cat ∈ cats, HasMap w.db cat) ∧ ∃ e db',
      cats.mapM (bootstrapChild edition config now random) w = .error e { w with db := db' } := by
  induction cats generalizing w with
  | nil => exact .inl ⟨by simp, [], w.db, rfl, by simp, .nil _⟩
  | cons cat cats ih =>
      rw [List.mapM_cons]
      rcases selectMapFor_cases now w cat config [] (random cat.id) with
        ⟨hmap, m, _, hselectable, hok⟩ | ⟨hmap, e, he⟩
      · let db₁ := (createCycleForEdition edition.id cat.id m.id edition.startedAt w.db).2
        have hchild : ∃ event, event.mapCode = m.code ∧
            bootstrapChild edition config now random cat w = .ok event { w with db := db₁ } :=
          ⟨_, rfl, (bind_of_ok hok).trans rfl⟩
        obtain ⟨event, hevent, hchild⟩ := hchild
        rcases ih { w with db := db₁ } with
          ⟨hmaps, started, db', hoks, hcodes, hrun⟩ | ⟨hmaps, e, db', he⟩
        · refine .inl ⟨?_, event :: started, db', (bind_of_ok hchild).trans (bind_of_ok hoks), ?_,
            .cons (.create m.id) hrun⟩
          · intro c hc
            rcases List.mem_cons.mp hc with rfl | hc
            · exact hmap
            · exact hmaps c hc
          · intro event' hevent'
            rcases List.mem_cons.mp hevent' with rfl | hevent'
            · rw [hevent]
              exact Option.isSome_iff_ne_none.mpr (code_of_selectable hselectable)
            · exact hcodes event' hevent'
        · refine .inr ⟨fun h ↦ hmaps fun c hc ↦ h c (List.mem_cons_of_mem _ hc), e, db', ?_⟩
          exact (bind_of_ok hchild).trans (bind_of_error he)
      · have hchild : bootstrapChild edition config now random cat w = .error e w := bind_of_error he
        exact .inr ⟨fun h ↦ hmap (h cat List.mem_cons_self), e, w.db, bind_of_error hchild⟩

/-- The categories a bootstrap opens a cycle for. -/
def bootstrapCategories (db : Db) : List Category := (fetchCategories db).filter Category.isActive

theorem mem_bootstrapCategories {db : Db} {cat : Category} :
    cat ∈ bootstrapCategories db ↔ cat ∈ db.categories.rows ∧ cat.isActive = true := by
  simp [bootstrapCategories, fetchCategories]

theorem nodup_bootstrapCategories (db : Db) : ((bootstrapCategories db).map Category.id).Nodup := by
  have hperm := (perm_orderBy Category.name db.categories.rows).map Category.id
  exact (hperm.nodup_iff.mpr db.categories.nodup).sublist (List.filter_sublist.map _)

/-- When the edition of a bootstrap starts. -/
def bootstrapStart (zones : TimeZones) (now : Int) (config : Config) : Int :=
  if config.debugCycleSeconds.isSome then now
  else nextGridBoundary zones now config.anchorWeekday config.anchorTime config.anchorTz
    (periodFromConfig config)

/-- A bootstrap past its guard opens an edition, or is rolled back because an active
category has no map. -/
theorem bootstrapInsert_cases (zones : TimeZones) (now : Int) (random : Nat → Shuffle CoreMap)
    (db : Db) :
    ((∀ cat ∈ db.categories.rows, cat.isActive = true → HasMap db cat) ∧
      ∃ started db₂, (∀ event ∈ started, event.mapCode.isSome) ∧
        Run (ChildStep db.editions.nextId (bootstrapStart zones now db.config))
          (setTransitionsPaused false (createEdition (bootstrapStart zones now db.config)
            (bootstrapStart zones now db.config + periodFromConfig db.config) db).2)
          (bootstrapCategories db) db₂ ∧
        final (inTransaction (bootstrapInsert zones now random) { db }) =
          { db := createPendingTransition none (some db.editions.nextId) .editionRollover
              (encodeRollover { editionId := db.editions.nextId, results := [], started }) now db₂ }) ∨
    (¬ ∀ cat ∈ db.categories.rows, cat.isActive = true → HasMap db cat) ∧
      final (inTransaction (bootstrapInsert zones now random) { db }) = { db } := by
  let period := periodFromConfig db.config
  let startedAt := bootstrapStart zones now db.config
  let edition : Edition := { id := db.editions.nextId, startedAt, endsAt := startedAt + period }
  let db₁ := setTransitionsPaused false (createEdition startedAt (startedAt + period) db).2
  -- the prefix of the program, up to the loop
  have hprefix : bootstrapInsert zones now random { db } =
      (do
        let started ← (bootstrapCategories db).mapM (bootstrapChild edition db.config now random)
        execute (createPendingTransition none (some edition.id) .editionRollover
          (encodeRollover { editionId := edition.id, results := [], started }) now)
        return edition : Tournament Edition) { db := db₁ } := rfl
  have hmaps : (∀ cat ∈ bootstrapCategories db, HasMap db₁ cat) ↔
      ∀ cat ∈ db.categories.rows, cat.isActive = true → HasMap db cat := by
    simp only [mem_bootstrapCategories, and_imp]
    exact Iff.rfl
  rcases bootstrapChildren_cases now edition db.config random (bootstrapCategories db)
    { db := db₁ } with ⟨hmap, started, db₂, hok, hcodes, hrun⟩ | ⟨hmap, e, db', he⟩
  · refine .inl ⟨hmaps.mp hmap, started, db₂, hcodes, hrun, ?_⟩
    have hinsert := hprefix.trans (bind_of_ok hok)
    rw [inTransaction, transaction_of_ok hinsert]
    rfl
  · refine .inr ⟨fun h ↦ hmap (hmaps.mpr h), ?_⟩
    have hinsert := hprefix.trans (bind_of_error he)
    rw [inTransaction, transaction_of_error hinsert]
    rfl

/-- A bootstrap is refused while an edition is active. -/
theorem bootstrapEdition_cases (zones : TimeZones) (now : Int) (random : Nat → Shuffle CoreMap)
    (db : Db) :
    (fetchActiveEdition db ≠ none ∧ final (bootstrapEdition zones now random { db }) = { db }) ∨
    fetchActiveEdition db = none ∧ final (bootstrapEdition zones now random { db }) =
      final (inTransaction (bootstrapInsert zones now random) { db }) := by
  have hquery : (query fetchActiveEdition : Tournament _) { db } =
      .ok (fetchActiveEdition db) { db } := rfl
  cases hactive : fetchActiveEdition db with
  | some active =>
      rw [hactive] at hquery
      have hguard : bootstrapGuard { db } = .error (.domain (.cycleAlreadyLive 0 active.id)) { db } :=
        bind_of_ok hquery
      refine .inl ⟨Option.some_ne_none _, ?_⟩
      rw [bootstrapEdition, inTransaction, transaction_of_error (bind_of_error hguard)]
      rfl
  | none =>
      rw [hactive] at hquery
      have hguard : bootstrapGuard { db } = .ok ⟨⟩ { db } := bind_of_ok hquery
      refine .inr ⟨rfl, ?_⟩
      rw [bootstrapEdition, inTransaction, inTransaction, transaction, transaction,
        bind_of_ok hguard]

end Bootstrap

/-! ## Aligned runs -/

section Run

variable {s s' : EditionState} {l : EditionLabel}

theorem EditionInv.congr (hs : EditionInv s) (heditions : s'.db.editions = s.db.editions)
    (hcycles : s'.db.cycles = s.db.cycles) (hrotations : s'.rotations = s.rotations) :
    EditionInv s' where
  edition_unique := by
    rw [heditions]
    exact hs.edition_unique
  cycle_unique := by
    rw [hcycles]
    exact hs.cycle_unique
  starts := by
    rw [heditions, hcycles]
    exact hs.starts
  contiguous := by
    rw [hrotations]
    exact fun r hr ↦ (TimesKept.of_eq heditions).contiguous (hs.contiguous r hr)
  owned := by
    rw [heditions, hcycles]
    exact hs.owned

/-- A bootstrap that writes while no edition is active keeps the editions aligned. -/
theorem EditionInv.insert (hs : EditionInv s) (zones : TimeZones) (now : Int)
    (random : Nat → Shuffle CoreMap) (hl : ¬ Collides s (.insert zones now random))
    (bootstraps : Nat) :
    EditionInv { s with
      db := (final (inTransaction (bootstrapInsert zones now random) { db := s.db })).db
      bootstraps } := by
  rcases bootstrapInsert_cases zones now random s.db with
    ⟨hmaps, started, db₂, _, hrun, hdb⟩ | ⟨_, hdb⟩
  · have hnone : ∀ e ∈ s.db.editions.rows, e.status ≠ .active :=
      fun e he hactive ↦ hl ⟨⟨zones, now, random, rfl⟩, ⟨e, he, hactive⟩, hmaps⟩
    have hidle : Idle s.db := by
      refine ⟨hnone, fun cy hcy hactive ↦ ?_⟩
      obtain ⟨e, he, hactive', _⟩ := hs.owned cy hcy hactive
      exact hnone e he hactive'
    have hrotations : ∀ r ∈ s.rotations, Contiguous db₂ r.1 r.2 := fun r hr ↦ by
      have htimes : TimesKept s.db db₂ := (TimesKept.createEdition _ _ s.db).trans
        (.of_eq (by rw [childRun_eq hrun]; rfl))
      exact htimes.contiguous (hs.contiguous r hr)
    have hopen := editionInv_open bootstraps hidle
      (nodup_bootstrapCategories s.db) (by rfl) (by rfl) hrun hrotations
    rw [hdb]
    exact hopen.congr rfl rfl rfl
  · rw [hdb]
    exact hs.congr rfl rfl rfl

/-- A tick, however late, keeps the editions aligned. -/
theorem EditionInv.tick (hs : EditionInv s) (lockFree : Bool) (now : Int)
    (random : Nat → Shuffle CoreMap) :
    EditionInv { s with
      db := processEditionTransitions lockFree now random s.db
      rotations := s.rotations ++ rotation lockFree now s.db } := by
  rcases processEditionTransitions_cases lockFree now random s.db with
    ⟨hnone, hdb⟩ | ⟨e, hlock, hdue, hpaused, hdb⟩ | ⟨e, hlock, hdue, hpaused, hrun⟩
  · have hrotation : rotation lockFree now s.db = [] := by
      rcases hnone with hnone | hnone <;> simp [rotation, hnone]
    rw [hdb, hrotation, List.append_nil]
    exact hs.congr rfl rfl rfl
  · have hrotation : rotation lockFree now s.db = [] := by simp [rotation, hpaused]
    obtain ⟨he, hactive, _⟩ := dueEdition_spec hdue
    rw [hdb, hrotation, List.append_nil]
    exact .of_idle (idle_closeEdition hs he hactive)
      fun r hr ↦ (TimesKept.closeEdition e.id s.db).contiguous (hs.contiguous r hr)
  · have hrotation : rotation lockFree now s.db = [(e.id, s.db.editions.nextId)] := by
      simp [rotation, hlock, hpaused, hdue]
    obtain ⟨he, hactive, _⟩ := dueEdition_spec hdue
    have hcats : ((activeCategories s.db).map Category.id).Nodup :=
      ((perm_orderBy Category.id _).map Category.id).nodup_iff.mpr (Table.nodup_map_key_select _)
    have heditions := congrArg Db.editions (childRun_eq hrun)
    have htimes : TimesKept s.db (processEditionTransitions lockFree now random s.db) :=
      ((TimesKept.closeEdition e.id s.db).trans (.createEdition _ _ _)).trans (.of_eq heditions)
    rw [hrotation]
    refine editionInv_open _ (idle_closeEdition hs he hactive) hcats rfl rfl hrun fun r hr ↦ ?_
    rcases List.mem_append.mp hr with hr | hr
    · exact htimes.contiguous (hs.contiguous r hr)
    · -- the rotation just made
      rw [List.mem_singleton.mp hr]
      obtain ⟨prev, hprev, _, hend⟩ := htimes e.id e (Table.get?_of_mem he)
      refine ⟨prev, { id := s.db.editions.nextId, startedAt := e.endsAt
                      endsAt := e.endsAt + editionPeriod s.db.config }, hprev, ?_, hend.symm⟩
      rw [heditions]
      exact Table.get?_eq_some_iff.mpr ⟨List.mem_append_right _ (List.mem_singleton_self _), rfl⟩

theorem EditionInv.step (hs : EditionInv s) (h : editionStep s l = some s')
    (hl : ¬ Collides s l) : EditionInv s' := by
  cases l with
  | guard =>
      rw [editionStep] at h
      split at h
      · rw [← Option.some.inj h]
        exact hs.congr rfl rfl rfl
      · rwa [← Option.some.inj h]
  | insert zones now random =>
      rw [editionStep] at h
      split at h
      · cases h
      · rw [← Option.some.inj h]
        exact hs.insert zones now random hl _
  | pause paused =>
      rw [← Option.some.inj h]
      exact hs.congr rfl rfl rfl
  | tick lockFree now random =>
      rw [← Option.some.inj h]
      exact hs.tick lockFree now random

/-- A colliding bootstrap leaves two editions active. -/
theorem Collides.not_aligned (hl : Collides s l) (h : editionStep s l = some s') :
    ¬ Aligned s' := by
  obtain ⟨⟨zones, now, random, rfl⟩, ⟨e, he, hactive⟩, hmaps⟩ := hl
  rw [editionStep] at h
  split at h
  · cases h
  · rw [← Option.some.inj h]
    rcases bootstrapInsert_cases zones now random s.db with
      ⟨_, started, db₂, _, hrun, hdb⟩ | ⟨hnot, _⟩
    · intro haligned
      let startedAt := bootstrapStart zones now s.db.config
      let endsAt := startedAt + periodFromConfig s.db.config
      rw [childRun_eq hrun] at hdb
      have heditions := congrArg (Db.editions ∘ World.db) hdb
      simp only [Function.comp_apply] at heditions
      have hnew : { id := s.db.editions.nextId, startedAt, endsAt } ∈
          (final (inTransaction (bootstrapInsert zones now random) { db := s.db })).db.editions.rows := by
        rw [heditions]
        exact List.mem_append_right _ (List.mem_singleton_self _)
      have hold : e ∈
          (final (inTransaction (bootstrapInsert zones now random) { db := s.db })).db.editions.rows := by
        rw [heditions]
        exact List.mem_append_left _ he
      have hid : e.id = s.db.editions.nextId :=
        congrArg Edition.id (haligned.edition_unique e hold _ hnew hactive rfl)
      exact absurd (s.db.editions.fresh e he) (by rw [show key e = e.id from rfl, hid]; omega)
    · exact absurd hmaps hnot

/-- However bootstraps, ticks and the pause switch are interleaved, a run keeps the
editions aligned exactly when no bootstrap of it collides. -/
theorem editions_aligned_iff {ls : List EditionLabel} (hs : EditionInv s) :
    Run (fun s l s' ↦ editionStep s l = some s' ∧ Aligned s') s ls s' ↔
      Run (Guarded (fun s l ↦ ¬ Collides s l) (ofStep editionStep)) s ls s' := by
  apply Run.congr EditionInv
  · intro s l s' hs
    constructor
    · rintro ⟨hstep, haligned⟩
      exact ⟨fun hl ↦ hl.not_aligned hstep haligned, hstep⟩
    · rintro ⟨hl, hstep⟩
      exact ⟨hstep, (hs.step hstep hl).toAligned⟩
  · rintro s l s' hs ⟨hstep, haligned⟩
    exact hs.step hstep fun hl ↦ hl.not_aligned hstep haligned
  · exact hs

end Run

/-- A tournament with one category and one map, before its first edition. -/
def unstarted : EditionState where
  db :=
    { config := { debugCycleSeconds := some 60 }
      categories := Table.empty.insert fun id ↦ { id, name := "Easy", difficulties := [.easy] }
      maps := Table.empty.insert fun id ↦ { id, code := some "AAAA", difficulty := .easy } }

/-- Time zone rules in which every zone is UTC. -/
def utc : TimeZones := ⟨fun _ t ↦ t, fun _ t ↦ t⟩

/-- Two bootstraps pass the guard before either writes: two editions are active, and
the category has two active cycles. -/
theorem twoBootstraps_not_aligned :
    ([.guard, .guard, .insert utc 5 fun _ ↦ default, .insert utc 6 fun _ ↦ default].foldlM
      editionStep unstarted).map (fun s ↦
        (s.db.editions.rows.map Edition.status, s.db.cycles.rows.map fun cy ↦
          (cy.categoryId, cy.status))) =
      some ([.active, .active], [(1, .active), (1, .active)]) := by
  decide +kernel

/-- One bootstrap of the unstarted tournament. -/
theorem editions_aligned_iff_unstarted :
    Run (fun s l s' ↦ editionStep s l = some s' ∧ Aligned s') unstarted [.guard]
        { unstarted with bootstraps := 1 } ↔
      Run (Guarded (fun s l ↦ ¬ Collides s l) (ofStep editionStep)) unstarted [.guard]
        { unstarted with bootstraps := 1 } :=
  editions_aligned_iff (.of_idle ⟨by simp [unstarted], by simp [unstarted]⟩ (by simp [unstarted]))

end Genjishimada.Tournaments
