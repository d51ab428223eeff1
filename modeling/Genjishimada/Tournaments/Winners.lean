import Genjishimada.Services.Tournament
import Genjishimada.Tournaments.Drain
import Genjishimada.Tournaments.Leaderboard

/-!
# Who wins and who is paid

A results event of a cycle comes to be on three paths: the combined rollover of the
poller's first tick, the `edition_results` row of its drain, and the same row when
an admin forces it.  All three build the event from the leaderboard as it then
stands, and the leaderboard ranks unverified runs below verified ones instead of
dropping them.  So a run that is not verified wins, or is paid for its place,
exactly when the verified runs do not reach down that far.
-/

namespace Genjishimada.Tournaments

open Library Sdk Repository Services

/-! ## The three paths -/

/-- A program that led from `w` to `w'` has sent or stored a results event. -/
inductive Announced (w w' : World Db Event) (event : TournamentCycleCompletedEvent) : Prop
  | /-- In a rollover message. -/
    sent (new : List (Message Event)) (m : Message Event) (e : TournamentRolloverEvent) :
      w'.broker = w.broker ++ new → m ∈ new → m.body = .tournamentRollover e →
      event ∈ e.results → Announced w w' event
  | /-- In an `edition_results` row. -/
    stored (t : PendingTransition) (e : TournamentEditionResultsEvent) :
      t ∈ w'.db.pendingTransitions.rows → t ∉ w.db.pendingTransitions.rows →
      convertEditionResults t.payload = some e → event ∈ e.results → Announced w w' event

/-- The results event is built from the database `db`, by the poller or by a
force-publish. -/
inductive Built (db : Db) (event : TournamentCycleCompletedEvent) : Prop
  | poller {w w' : World Db Event} {now : Int} {edition : Edition} {events : List XpGrantEvent} :
      w.db = db → (processEdition now edition : Tournament _) w = .ok events w' →
      Announced w w' event → Built db event
  | force {w w' : World Db Event} {now : Int} {locked : Nat → Bool} :
      w.db = db → forcePublishResults now locked w = .ok ⟨⟩ w' → Announced w w' event →
      Built db event

/-- The receipt that keeps the whole body. -/
def sentBody (m : Message Event) : Option Event := some m.body

/-- A body of the poller's drain of the edition. -/
def drainBody (editionId : Nat) (db : Db) (body : Event) : Prop :=
  ∀ e, body = .tournamentRollover e → ∀ event ∈ e.results, event ∈ buildResults editionId db

/-- Everything the poller sends or stores for an edition is built from the
leaderboards of its children. -/
theorem processEdition_bodies (now : Int) (edition : Edition) (w : World Db Event) :
    ∃ bodies, (∀ body ∈ bodies, drainBody edition.id w.db body) ∧
      Sends sentBody (processEdition now edition : Tournament _) w bodies
        fun _ db ↦ ∀ t ∈ db.pendingTransitions.rows, t ∈ w.db.pendingTransitions.rows ∨
          t = drainedRow edition.id now w.db w.db.pendingTransitions.nextId := by
  have hold {db : Db} (h : db.pendingTransitions = w.db.pendingTransitions) :
      ∀ t ∈ db.pendingTransitions.rows, t ∈ w.db.pendingTransitions.rows ∨
        t = drainedRow edition.id now w.db w.db.pendingTransitions.nextId :=
    fun t ht ↦ .inl (h ▸ ht)
  suffices h : ∃ bodies, (∀ body ∈ bodies, drainBody edition.id w.db body) ∧
      Sends sentBody
        (if ¬ edition.startAnnounced ∧ countInflightVerifications edition.id w.db > 0 then
          announceStart edition.id (fetchActiveEditionStartedCycles w.db)
        else if ¬ edition.startAnnounced ∧ countInflightVerifications edition.id w.db = 0 then
          publishCombined edition.id (fetchActiveEditionStartedCycles w.db)
        else if countInflightVerifications edition.id w.db = 0 then
          (do
            execute (writeDrainedResultsRow edition.id now)
            return [])
        else return [] : Tournament _) w bodies
        fun _ db ↦ ∀ t ∈ db.pendingTransitions.rows, t ∈ w.db.pendingTransitions.rows ∨
          t = drainedRow edition.id now w.db w.db.pendingTransitions.nextId by
    obtain ⟨bodies, hbodies, hsends⟩ := h
    exact ⟨bodies, hbodies, hsends.returns, hsends.raises⟩
  split
  · refine ⟨_, ?_, (announceStart_sends fun _ ↦ rfl).mono fun _ db h ↦ hold (h ▸ rfl)⟩
    simp [drainBody]
  split
  · have hframe {db db₁ : Db} (h : OnlyGrants w.db db₁) (hdb : db = completeEdition edition.id
        (awardEditionStreaks (buildResults edition.id w.db) db₁).2) :
        db.pendingTransitions = w.db.pendingTransitions := by
      rw [hdb]
      exact (h.onlyRewards.trans (awardEditionStreaks_onlyRewards _ _)).pendingTransitions_eq
    refine ⟨_, ?_, (publishCombined_sends fun _ ↦ rfl).mono fun _ db ⟨_, h, hdb⟩ ↦
      hold (hframe h hdb)⟩
    simp [drainBody]
  split
  · refine ⟨[], by simp, (Sends.execute _).andThen fun _ w₁ h₁ ↦ .pure _ fun t ht ↦ ?_⟩
    rw [h₁] at ht
    exact (List.mem_append.mp ht).imp_right List.mem_singleton.mp
  · exact ⟨[], by simp, .pure _ (hold rfl)⟩

/-- Whatever the path, the event is that of a child cycle of an edition, built from
its leaderboard. -/
theorem Built.mem_buildResults {db : Db} {event : TournamentCycleCompletedEvent}
    (h : Built db event) : ∃ editionId, event ∈ buildResults editionId db := by
  have hrow {editionId : Nat} {now : Int} {w : World Db Event} {t : PendingTransition}
      {e : TournamentEditionResultsEvent}
      (ht : t = drainedRow editionId now w.db w.db.pendingTransitions.nextId)
      (he : convertEditionResults t.payload = some e) (hevent : event ∈ e.results) :
      event ∈ buildResults editionId w.db := by
    rw [ht] at he
    obtain rfl : _ = e := Option.some.inj ((convertEditionResults_encode _).symm.trans he)
    exact hevent
  cases h with
  | @poller w w' now edition events hdb hok hann =>
      subst hdb
      refine ⟨edition.id, ?_⟩
      obtain ⟨bodies, hbodies, hsends⟩ := processEdition_bodies now edition w
      obtain ⟨a, w'', hok', _, hreceipts, hrows⟩ := hsends.returns fun hr ↦ by
        obtain ⟨e, w'', he⟩ := hsends.raises hr
        rw [hok] at he
        cases he
      rw [hok] at hok'
      cases hok'
      cases hann with
      | sent new m e hnew hm hbody hevent =>
          rw [World.receipts, World.receipts, hnew, List.filterMap_append,
            List.append_cancel_left_eq] at hreceipts
          have hmem : m.body ∈ new.filterMap sentBody := List.mem_filterMap.mpr ⟨m, hm, rfl⟩
          rw [hreceipts] at hmem
          have hmem := (delivered_sublist _ _).subset hmem
          exact hbodies _ hmem e hbody event hevent
      | stored t e ht hnot he hevent => exact hrow ((hrows t ht).resolve_left hnot) he hevent
  | @force w w' now locked hdb hok hann =>
      subst hdb
      rw [forcePublishResults_apply] at hok
      cases hes : fetchAwaitingResultsEditions locked w.db with
      | nil =>
          rw [hes] at hok
          cases hok
      | cons edition es =>
          rw [hes] at hok
          cases hok
          refine ⟨edition.id, ?_⟩
          cases hann with
          | sent new m e hnew hm hbody hevent =>
              obtain rfl : new = [] := List.self_eq_append_right.mp hnew
              simp at hm
          | stored t e ht hnot he hevent =>
              exact hrow (List.mem_singleton.mp ((List.mem_append.mp ht).resolve_left hnot)) he hevent

/-! ## Placement grants -/

section Placements

variable {tiers : List PlacementXpTier} (event : TournamentCycleCompletedEvent) {db : Db}

/-- A grant for a standing whose place pays. -/
def Paid (tiers : List PlacementXpTier) (standings : List TournamentLeaderboardEntryResponse)
    (g : XpGrant) : Prop :=
  ∃ s ∈ standings, placementByPlace tiers s.rank ≠ 0 ∧ g.userId = s.userId

theorem awardPlacement_grantsOnly {standings : List TournamentLeaderboardEntryResponse}
    {s : TournamentLeaderboardEntryResponse} (hs : s ∈ standings) (cycleId : Nat) :
    Steps (GrantsOnly (Paid tiers standings)) (awardPlacement tiers cycleId s) := by
  intro db
  rw [awardPlacement]
  split
  · exact .refl db
  · rename_i hxp
    obtain ⟨hold, hnew⟩ := grantXp_grantsOnly s.userId (placementByPlace tiers s.rank)
      s!"Tournament Placement #{s.rank}" cycleId .placement db
    refine ⟨hold, fun g hg ↦ (hnew g hg).imp_right ?_⟩
    rintro rfl
    exact ⟨s, hs, hxp, rfl⟩

/-- Once a standing whose place pays has been seen to, its grant is on record. -/
theorem awardPlacement_claimed {s : TournamentLeaderboardEntryResponse}
    (hxp : placementByPlace tiers s.rank ≠ 0) (cycleId : Nat) (db : Db) :
    Claimed cycleId s.userId .placement (awardPlacement tiers cycleId s db).2 := by
  rw [awardPlacement, if_neg hxp]
  exact grantXp_claimed _ _ _ _ _ db

variable {category : Category} (hcat : fetchCategory event.categoryId db = some category)
include hcat

theorem awardCyclePlacements_apply : (awardCyclePlacements event db).2 =
    (event.standings.mapM (awardPlacement category.placementXp event.cycleId) db).2 := by
  rw [awardCyclePlacements, get_bind_apply, hcat]
  rfl

/-- Placement XP goes to standings whose place pays, and to all of them. -/
theorem awardCyclePlacements_grantsOnly :
    GrantsOnly (Paid category.placementXp event.standings) db (awardCyclePlacements event db).2 := by
  rw [awardCyclePlacements_apply event hcat]
  exact Steps.mapM .refl (fun _ _ _ ↦ .trans)
    (fun s hs ↦ awardPlacement_grantsOnly hs event.cycleId) db

theorem awardCyclePlacements_claimed {s : TournamentLeaderboardEntryResponse}
    (hs : s ∈ event.standings) (hxp : placementByPlace category.placementXp s.rank ≠ 0) :
    Claimed event.cycleId s.userId .placement (awardCyclePlacements event db).2 := by
  rw [awardCyclePlacements_apply event hcat]
  refine Steps.mapM_establishes hs (fun b db hc ↦ ?_) (awardPlacement_claimed hxp _) db
  exact (awardPlacement_grantsOnly (List.mem_singleton_self b) event.cycleId db).claimed hc

end Placements

/-! ## Sound results -/

/-- The winner and everyone paid for a place, when the category pays by `tiers`,
have a verified run. -/
structure Sound (db : Db) (tiers : List PlacementXpTier)
    (event : TournamentCycleCompletedEvent) : Prop where
  winner : ∀ u, event.winnerUserId = some u → u ∈ verifiedRunners event.cycleId db
  placements : ∀ (dbAward : Db) (category : Category),
    fetchCategory event.categoryId dbAward = some category → category.placementXp = tiers →
    ∀ g ∈ (awardCyclePlacements event dbAward).2.xpGrants, g ∉ dbAward.xpGrants →
      g.userId ∈ verifiedRunners event.cycleId db

section Sound

variable {db : Db} {cycleId categoryId : Nat} {tiers : List PlacementXpTier}

/-- The winner is whoever is ranked first. -/
theorem winnerUserId_eq_some_iff {u : Nat} :
    (buildCycleCompletedEvent cycleId categoryId db).winnerUserId = some u ↔
      ∃ s ∈ fetchLeaderboard cycleId db, s.rank = 1 ∧ s.userId = u := by
  change winnerOf (fetchLeaderboard cycleId db) = some u ↔ _
  have hrank := @rank_getElem_fetchLeaderboard cycleId db
  cases h : fetchLeaderboard cycleId db with
  | nil => simp [winnerOf]
  | cons s l =>
      rw [h] at hrank
      have hs : s.rank = 1 := hrank (i := 0) (by simp)
      constructor
      · intro hw
        rw [winnerOf, if_pos hs] at hw
        exact ⟨s, List.mem_cons_self, hs, Option.some.inj hw⟩
      · rintro ⟨s', hs', hrank', rfl⟩
        rw [winnerOf, if_pos hs]
        obtain ⟨i, hi, rfl⟩ := List.getElem_of_mem hs'
        obtain rfl : i = 0 := by
          have := hrank hi
          omega
        rfl

variable (categoryId) in
/-- The winner has a verified run exactly when somebody has, or nobody took part. -/
theorem winner_verified_iff :
    (∀ u, (buildCycleCompletedEvent cycleId categoryId db).winnerUserId = some u →
        u ∈ verifiedRunners cycleId db) ↔
      fetchCycleParticipants cycleId db = [] ∨ verifiedRunners cycleId db ≠ [] := by
  constructor
  · intro h
    rw [or_iff_not_imp_left]
    intro hparticipants
    have hpos : 1 ≤ (fetchCycleParticipants cycleId db).length :=
      List.length_pos_iff.mpr hparticipants
    obtain ⟨s, hs, hrank⟩ := exists_rank_eq Nat.one_pos hpos
    exact List.ne_nil_of_mem (h s.userId (winnerUserId_eq_some_iff.mpr ⟨s, hs, hrank, rfl⟩))
  · rintro h u hu
    obtain ⟨s, hs, hrank, rfl⟩ := winnerUserId_eq_some_iff.mp hu
    rw [← rank_le_iff hs, hrank]
    refine List.length_pos_iff.mpr (h.resolve_left fun hnil ↦ ?_)
    have hle := rank_le hs
    rw [hnil, hrank] at hle
    simp at hle

/-- A database that holds one category and has granted nothing. -/
def freshLedger (categoryId : Nat) (tiers : List PlacementXpTier) : Db where
  categories := Table.empty.upsert
    { id := categoryId, name := "", difficulties := [], placementXp := tiers } id

variable (categoryId) in
/-- Placement XP goes to users with a verified run only, exactly when no place below
the last of them pays. -/
theorem placements_verified_iff :
    (∀ (dbAward : Db) (category : Category),
        fetchCategory categoryId dbAward = some category → category.placementXp = tiers →
        ∀ g ∈ (awardCyclePlacements (buildCycleCompletedEvent cycleId categoryId db)
            dbAward).2.xpGrants, g ∉ dbAward.xpGrants → g.userId ∈ verifiedRunners cycleId db) ↔
      ∀ p, (verifiedRunners cycleId db).length < p →
        p ≤ (fetchCycleParticipants cycleId db).length → placementByPlace tiers p = 0 := by
  constructor
  · intro h p hp hle
    by_contra hxp
    obtain ⟨s, hs, rfl⟩ := exists_rank_eq (Nat.zero_lt_of_lt hp) hle
    have hcat : fetchCategory categoryId (freshLedger categoryId tiers) =
        some { id := categoryId, name := "", difficulties := [], placementXp := tiers } := by
      rw [fetchCategory, freshLedger, Table.get?_upsert]
      exact if_pos rfl
    obtain ⟨g, hg, _, hu, _⟩ := awardCyclePlacements_claimed
      (buildCycleCompletedEvent cycleId categoryId db) hcat hs hxp
    have hverified := h _ _ hcat rfl g hg (by simp [freshLedger])
    rw [hu, ← rank_le_iff hs] at hverified
    omega
  · rintro h dbAward category hcat rfl g hg hnew
    obtain ⟨s, hs, hxp, hu⟩ := ((awardCyclePlacements_grantsOnly
      (buildCycleCompletedEvent cycleId categoryId db) hcat).2 g hg).resolve_left hnew
    rw [hu, ← rank_le_iff hs]
    by_contra hlt
    exact hxp (h s.rank (by omega) (rank_le hs))

/-- A results event, on whichever path it is built, is sound exactly when the cycle
has a verified run if it has any, and no place from the number of users with a
verified run on, up to the number of participants, pays. -/
theorem resultsEvent_sound_iff {event : TournamentCycleCompletedEvent} (h : Built db event)
    (tiers : List PlacementXpTier) :
    Sound db tiers event ↔
      (fetchCycleParticipants event.cycleId db = [] ∨ verifiedRunners event.cycleId db ≠ []) ∧
      ∀ p, (verifiedRunners event.cycleId db).length < p →
        p ≤ (fetchCycleParticipants event.cycleId db).length → placementByPlace tiers p = 0 := by
  obtain ⟨editionId, hmem⟩ := h.mem_buildResults
  obtain ⟨child, _, rfl⟩ := List.mem_map.mp hmem
  rw [show (buildCycleCompletedEvent child.id child.categoryId db).cycleId = child.id from rfl,
    ← winner_verified_iff child.categoryId,
    ← placements_verified_iff child.categoryId]
  exact ⟨fun h ↦ ⟨h.winner, h.placements⟩, fun h ↦ ⟨h.1, h.2⟩⟩

end Sound

/-- An edition whose only run was abandoned in the verification queue. -/
def abandonedRun : Db where
  editions := Table.empty.insert fun id ↦
    { id, startedAt := 0, endsAt := 10, status := .awaitingResults, startAnnounced := true }
  cycles := Table.empty.insert fun id ↦
    { id, categoryId := 1, mapId := 1, status := .finalizing, startedAt := some 0
      editionId := some 1 }
  completions := Table.empty.insert fun id ↦
    { id, cycleId := 1, userId := 7, mapId := 1, time := 1250, video := some "v", insertedAt := 5 }

/-- The event a force-publish builds for it. -/
def abandonedResults : TournamentCycleCompletedEvent where
  cycleId := 1
  categoryId := 1
  standings := [{ rank := 1, userId := 7, name := "Unknown", time := 1250, verified := false
                  completion := true }]
  winnerUserId := some 7

theorem abandonedResults_built : Built abandonedRun abandonedResults :=
  @Built.force _ _ { db := abandonedRun } _ 20 (fun _ ↦ false) rfl rfl
    (.stored (drainedRow 1 20 abandonedRun 1) { editionId := 1, results := [abandonedResults] }
      (by decide) (by decide) (by decide +kernel) (by decide))

/-- The abandoned run wins. -/
theorem abandonedResults_not_sound :
    Built abandonedRun abandonedResults ∧ ¬ Sound abandonedRun [] abandonedResults :=
  ⟨abandonedResults_built, fun h ↦ absurd (h.winner 7 rfl) (by decide +kernel)⟩

/-- The condition fails of it, as there is no verified run. -/
theorem abandonedResults_sound_iff :
    Sound abandonedRun [] abandonedResults ↔
      (fetchCycleParticipants 1 abandonedRun = [] ∨ verifiedRunners 1 abandonedRun ≠ []) ∧
      ∀ p, (verifiedRunners 1 abandonedRun).length < p →
        p ≤ (fetchCycleParticipants 1 abandonedRun).length → placementByPlace [] p = 0 :=
  resultsEvent_sound_iff abandonedResults_built []

/-! ## The winner in the history of cycles -/

section History

variable {scan join : Shuffle Completion} {cycleId : Nat} {db : Db} {c d w : Completion}

/-- No run of the cycle is in a better tier, or in the same tier and faster. -/
def Leading (cycleId : Nat) (db : Db) (c : Completion) : Prop :=
  (c ∈ db.completions.rows ∧ c.cycleId = cycleId) ∧
    ∀ d ∈ db.completions.rows, d.cycleId = cycleId → winnerKey c ≤ winnerKey d

theorem winnerKey_le_of_standingKey_le (h : standingKey c ≤ standingKey d) :
    winnerKey c ≤ winnerKey d := by
  simp only [standingKey, Prod.Lex.toLex_le_toLex] at h
  simp only [winnerKey, Prod.Lex.toLex_le_toLex]
  refine h.imp_right fun h ↦ ⟨h.1, h.2.imp_right fun h ↦ ⟨h.1, ?_⟩⟩
  exact h.2.elim le_of_lt fun h ↦ h.1.le

/-- A best run of each user, as `fetch_cycles` picks them. -/
theorem mem_bpu (scan : Shuffle Completion) (cycleId : Nat) (db : Db) {bpu : List Completion}
    (hbpu : bpu = distinctOn Completion.userId
      (orderBy (fun c : Completion ↦ toLex (c.userId, winnerKey c))
        (scan.order (db.completions.select fun c ↦ c.cycleId = cycleId)))) :
    (∀ b ∈ bpu, b ∈ db.completions.rows ∧ b.cycleId = cycleId) ∧
      ∀ c ∈ db.completions.rows, c.cycleId = cycleId →
        ∃ b ∈ bpu, b.userId = c.userId ∧ winnerKey b ≤ winnerKey c := by
  subst hbpu
  have hmem (c : Completion) : c ∈ orderBy (fun c : Completion ↦ toLex (c.userId, winnerKey c))
      (scan.order (db.completions.select fun c ↦ c.cycleId = cycleId)) ↔
        c ∈ db.completions.rows ∧ c.cycleId = cycleId := by
    rw [mem_orderBy, Shuffle.mem_order, Table.mem_select, decide_eq_true_iff]
  constructor
  · exact fun b hb ↦ (hmem b).mp (mem_of_mem_distinctOn hb)
  · intro c hc hcycle
    have hkept : ∃ b ∈ distinctOn Completion.userId _, b.userId = c.userId :=
      exists_mem_distinctOn ((hmem c).mpr ⟨hc, hcycle⟩)
    obtain ⟨b, hb, huser⟩ := hkept
    have hle := distinctOn_le (pairwise_orderBy _ _) hb ((hmem c).mpr ⟨hc, hcycle⟩) huser.symm
    refine ⟨b, hb, huser, ?_⟩
    rw [Prod.Lex.toLex_le_toLex] at hle
    exact (hle.resolve_left huser.not_lt).2

/-- Whatever the order of the rows, the winner leads. -/
theorem leading_fetchWinner (hw : fetchWinner scan join cycleId db = some w) :
    Leading cycleId db w := by
  obtain ⟨hrows, hbest⟩ := mem_bpu scan cycleId db rfl
  obtain ⟨t, ht⟩ := List.head?_eq_some_iff.mp hw
  have hmem : w ∈ orderBy winnerKey _ := ht ▸ List.mem_cons_self
  refine ⟨hrows w ((Shuffle.mem_order join).mp (mem_orderBy.mp hmem)), fun d hd hcycle ↦ ?_⟩
  obtain ⟨b, hb, _, hle⟩ := hbest d hd hcycle
  exact (orderBy_head_le ht ((Shuffle.mem_order join).mpr hb)).trans hle

/-- Every user with a leading run is the winner for some order of the rows. -/
theorem exists_fetchWinner (hc : Leading cycleId db c) :
    ∃ join w, fetchWinner default join cycleId db = some w ∧ w.userId = c.userId := by
  obtain ⟨hrows, hbest⟩ := mem_bpu default cycleId db rfl
  obtain ⟨b, hb, huser, hle⟩ := hbest c hc.1.1 hc.1.2
  refine ⟨Shuffle.first b, b, head?_orderBy_first hb fun d hd ↦ ?_, huser⟩
  exact hle.trans (hc.2 d (hrows d hd).1 (hrows d hd).2)

/-- There is a winner if somebody took part. -/
theorem fetchWinner_isSome (hc : c ∈ db.completions.rows) (hcycle : c.cycleId = cycleId) :
    ∃ w, fetchWinner scan join cycleId db = some w := by
  obtain ⟨_, hbest⟩ := mem_bpu scan cycleId db rfl
  obtain ⟨b, hb, _⟩ := hbest c hc hcycle
  refine Option.isSome_iff_exists.mp (List.isSome_head?.mpr ?_)
  exact List.ne_nil_of_mem (mem_orderBy.mpr ((Shuffle.mem_order join).mpr hb))

/-- The champion has a leading run. -/
theorem leading_winnerOf {u : Nat} (hu : winnerOf (fetchLeaderboard cycleId db) = some u) :
    ∃ c, Leading cycleId db c ∧ c.userId = u := by
  cases hbest : orderBy standingKey (bestPerUser cycleId db) with
  | nil => simp [fetchLeaderboard, hbest, winnerOf] at hu
  | cons c t =>
      have hc : c ∈ bestPerUser cycleId db := mem_orderBy.mp (hbest ▸ List.mem_cons_self)
      refine ⟨c, ⟨mem_rows_of_mem_bestPerUser hc, fun d hd hcycle ↦ ?_⟩, ?_⟩
      · have huser : d.userId ∈ (bestPerUser cycleId db).map Completion.userId :=
          (perm_map_bestPerUser cycleId db).mem_iff.mpr
            (mem_fetchCycleParticipants.mpr ⟨d, hd, hcycle, rfl⟩)
        obtain ⟨b, hb, hbd⟩ := List.mem_map.mp huser
        apply winnerKey_le_of_standingKey_le
        exact (orderBy_head_le hbest hb).trans (bestPerUser_le hb hd hcycle hbd.symm)
      · rw [fetchLeaderboard, hbest, List.map_cons, winnerOf] at hu
        split at hu
        · exact Option.some.inj hu
        · cases hu

/-- Somebody is champion if somebody took part. -/
theorem exists_winnerOf (hc : c ∈ db.completions.rows) (hcycle : c.cycleId = cycleId) :
    ∃ u, winnerOf (fetchLeaderboard cycleId db) = some u := by
  have hparticipants : c.userId ∈ fetchCycleParticipants cycleId db :=
    mem_fetchCycleParticipants.mpr ⟨c, hc, hcycle, rfl⟩
  obtain ⟨s, hs, hrank⟩ := exists_rank_eq Nat.one_pos (List.length_pos_of_mem hparticipants)
  have hwinner : (buildCycleCompletedEvent cycleId 0 db).winnerUserId = some s.userId :=
    winnerUserId_eq_some_iff.mpr ⟨s, hs, hrank, rfl⟩
  exact ⟨s.userId, hwinner⟩

/-- The two pipelines name the same user for every order of the rows exactly if the runs that
lead are one user's. -/
theorem fetchWinner_iff : (∀ scan join, (fetchWinner scan join cycleId db).map Completion.userId =
      winnerOf (fetchLeaderboard cycleId db)) ↔
    ∀ c d, Leading cycleId db c → Leading cycleId db d → c.userId = d.userId := by
  constructor
  · intro h c d hc hd
    obtain ⟨join, w, hw, hwc⟩ := exists_fetchWinner hc
    obtain ⟨join', w', hw', hwd⟩ := exists_fetchWinner hd
    have hcw := h default join
    have hdw := h default join'
    rw [hw, Option.map_some, hwc] at hcw
    rw [hw', Option.map_some, hwd] at hdw
    exact Option.some.inj (hcw.trans hdw.symm)
  · intro h scan join
    cases hw : fetchWinner scan join cycleId db with
    | some w =>
        have hlead := leading_fetchWinner hw
        obtain ⟨u, hu⟩ := exists_winnerOf hlead.1.1 hlead.1.2
        obtain ⟨c, hc, rfl⟩ := leading_winnerOf hu
        rw [hu, Option.map_some, h w c hlead hc]
    | none =>
        rw [Option.map_none, eq_comm, Option.eq_none_iff_forall_ne_some]
        intro u hu
        obtain ⟨c, hc, _⟩ := leading_winnerOf hu
        obtain ⟨w, hw'⟩ := fetchWinner_isSome hc.1.1 hc.1.2
        rw [hw] at hw'
        cases hw'

/-- A cycle's row names the winner of the cycle. -/
theorem winnerUserId_of_mem_fetchCycles {createdAt : Nat → Int} {status : Option CycleStatus}
    {categoryId : Option Nat} {limit offset : Nat} {row : CycleRow}
    (hrow : row ∈ (fetchCycles createdAt scan join status categoryId limit offset db).2) :
    row.winnerUserId = (fetchWinner scan join row.cycle.id db).map Completion.userId := by
  have hrow := List.mem_of_mem_drop (List.mem_of_mem_take hrow)
  obtain ⟨cy, _, hcy⟩ := List.mem_filterMap.mp hrow
  obtain ⟨m, _, rfl⟩ := Option.map_eq_some_iff.mp hcy
  rfl

/-- Without filters and on a page that is long enough, every cycle has a row. -/
theorem exists_mem_fetchCycles {cy : Cycle} {m : CoreMap} (hcy : cy ∈ db.cycles.rows)
    (hmap : db.maps.get? cy.mapId = some m) (scan join : Shuffle Completion) :
    ∃ row ∈ (fetchCycles (fun _ ↦ 0) scan join none none db.cycles.rows.length 0 db).2,
      row.cycle = cy := by
  refine ⟨cycleRow (fun _ ↦ 0) scan join db cy m, ?_, rfl⟩
  rw [fetchCycles, List.drop_zero, List.take_of_length_le]
  · refine List.mem_filterMap.mpr ⟨cy, ?_, by rw [hmap]; rfl⟩
    rw [mem_orderBy, Table.mem_select]
    exact ⟨hcy, rfl⟩
  · refine (List.length_filterMap_le _ _).trans ?_
    rw [length_orderBy]
    exact List.length_filter_le _ _

end History

/-- Whatever page of the history shows a cycle, and in whatever order the rows were read, the
winner it shows is the champion exactly if the runs that lead the cycle are one user's. -/
theorem historyWinner_iff {db : Db} {cy : Cycle} {m : CoreMap} (hcy : cy ∈ db.cycles.rows)
    (hmap : db.maps.get? cy.mapId = some m) :
    (∀ createdAt scan join status categoryId limit offset,
        ∀ row ∈ (fetchCycles createdAt scan join status categoryId limit offset db).2,
          row.cycle = cy → row.winnerUserId = winnerOf (fetchLeaderboard cy.id db)) ↔
      ∀ c d, Leading cy.id db c → Leading cy.id db d → c.userId = d.userId := by
  rw [← fetchWinner_iff]
  constructor
  · intro h scan join
    obtain ⟨row, hrow, rfl⟩ := exists_mem_fetchCycles hcy hmap scan join
    rw [← winnerUserId_of_mem_fetchCycles hrow]
    exact h _ _ _ _ _ _ _ row hrow rfl
  · rintro h createdAt scan join status categoryId limit offset row hrow rfl
    rw [winnerUserId_of_mem_fetchCycles hrow]
    exact h scan join

/-- A cycle in which two verified runs with a video took equally long; the user of the first is
registered after that of the second. -/
def deadHeat : Db where
  maps := Table.empty.insert fun id ↦ { id, code := some "ABCD", difficulty := .easy }
  cycles := Table.empty.insert fun id ↦
    { id, categoryId := 1, mapId := 1, status := .completed, startedAt := some 0 }
  completions := (Table.empty.insert fun id ↦
    { id, cycleId := 1, userId := 2, mapId := 1, time := 1250, video := some "v"
      status := .verified, insertedAt := 5 }).insert fun id ↦
    { id, cycleId := 1, userId := 1, mapId := 1, time := 1250, video := some "v"
      status := .verified, insertedAt := 6 }

/-- The history names the second, the champion is the first. -/
theorem deadHeat_winners :
    (fetchCycles (fun _ ↦ 0) default default none none 10 0 deadHeat).2.map CycleRow.winnerUserId =
      [some 1] ∧ winnerOf (fetchLeaderboard 1 deadHeat) = some 2 := by
  decide +kernel

/-- Both runs lead. -/
theorem deadHeat_winner_iff :
    (∀ createdAt scan join status categoryId limit offset,
        ∀ row ∈ (fetchCycles createdAt scan join status categoryId limit offset deadHeat).2,
          row.cycle = ⟨1, 1, 1, .completed, some 0, none⟩ →
          row.winnerUserId = winnerOf (fetchLeaderboard 1 deadHeat)) ↔
      ∀ c d, Leading 1 deadHeat c → Leading 1 deadHeat d → c.userId = d.userId :=
  historyWinner_iff (List.mem_singleton.mpr rfl) rfl

end Genjishimada.Tournaments
