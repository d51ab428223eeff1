import Genjishimada.Tournaments.Publication
import Mathlib.Data.List.Induction

/-!
# The champion role

The bot transfers the champion role of a category for every results entry it consumes:
it strips the role from whoever holds it and grants it to the winner.  It does so in the
order in which the messages reach it, and the poller publishes the results of an edition
when its verification queue is empty, which need not be the order in which the editions
end.  The role ends up with the winner of the entry that is consumed last.
-/

namespace Genjishimada.Tournaments

open Library Sdk Services

/-! ## The bot -/

/-- What the bot sees of the guild: the members in its cache, the roles, who holds them,
and the champion role of each category, which it fetches from the API. -/
structure Guild where
  members : List Nat
  roles : List Nat
  holders : Nat → List Nat
  championRoleId : Nat → Option Nat

def Guild.removeRoles (g : Guild) (holder role : Nat) : Guild :=
  { g with holders := Function.update g.holders role ((g.holders role).filter (· ≠ holder)) }

def Guild.addRoles (g : Guild) (member role : Nat) : Guild :=
  { g with holders := Function.update g.holders role (g.holders role ++ [member]) }

/-- `_transfer_champion_role`: strip the role from all its holders, then grant it. -/
def transferChampionRole (g : Guild) (entry : TournamentCycleCompletedEvent) : Guild :=
  match g.championRoleId entry.categoryId with
  | none => g
  | some role =>
      if role ∈ g.roles then
        let stripped := (g.holders role).foldl (fun g holder ↦ g.removeRoles holder role) g
        match entry.winnerUserId with
        | none => stripped
        | some winner =>
            if winner ∈ g.members then stripped.addRoles winner role else stripped
      else g

/-- `_on_edition_rollover`, its card apart. -/
def onEditionRollover (event : TournamentRolloverEvent) (g : Guild) : Guild :=
  if event.results.isEmpty ∧ event.started.isEmpty ∧ ¬ event.resultsPending then g
  else event.results.foldl transferChampionRole g

/-- `_on_edition_results`, its card apart. -/
def onEditionResults (event : TournamentEditionResultsEvent) (g : Guild) : Guild :=
  if event.results.isEmpty then g else event.results.foldl transferChampionRole g

/-- The consumers of the two queues; no other one touches the role. -/
def consume (g : Guild) : Event → Guild
  | .tournamentRollover event => onEditionRollover event g
  | .tournamentEditionResults event => onEditionResults event g
  | _ => g

/-- The results a message carries. -/
def resultsOf : Event → List TournamentCycleCompletedEvent
  | .tournamentRollover event => event.results
  | .tournamentEditionResults event => event.results
  | _ => []

/-- The edition a message with results is about. -/
def editionOf : Event → Option Nat
  | .tournamentRollover event => some event.editionId
  | .tournamentEditionResults event => some event.editionId
  | _ => none

/-! ## The poller and the bot -/

/-- The database, the messages the bot has not consumed yet, the guild, and the messages
consumed so far in their order. -/
structure ChampionState where
  db : Db
  inbox : List Event := []
  guild : Guild
  consumed : List Event := []

inductive ChampionLabel where
  | /-- A step of the cron, the poller, an admin, a verdict or a submission. -/
    publish (l : PublicationLabel)
  | /-- One of the messages is consumed. -/
    consume (i : Nat)

/-- One step of the system. -/
def championStep (s : ChampionState) : ChampionLabel → Option ChampionState
  | .publish l =>
      let w := publicationWorld s.db l
      some { s with db := w.db, inbox := s.inbox ++ w.broker.map (·.body) }
  | .consume i =>
      match s.inbox[i]? with
      | some m =>
          some { s with
            inbox := s.inbox.eraseIdx i
            guild := consume s.guild m
            consumed := s.consumed ++ [m] }
      | none => none

/-! ## Who should hold the role -/

/-- The results of the category in a message that has been consumed. -/
def ResultOf (categoryId : Nat) (s : ChampionState) (m : Event)
    (entry : TournamentCycleCompletedEvent) : Prop :=
  m ∈ s.consumed ∧ entry ∈ resultsOf m ∧ entry.categoryId = categoryId

/-- The edition a message is about. -/
def editionRow (s : ChampionState) (m : Event) : Option Edition :=
  (editionOf m).bind s.db.editions.get?

/-- The results are those of the category's edition with the latest `ends_at`. -/
def IsLatest (categoryId : Nat) (s : ChampionState) (m : Event)
    (entry : TournamentCycleCompletedEvent) : Prop :=
  ResultOf categoryId s m entry ∧ ∀ m' entry', ResultOf categoryId s m' entry' →
    ∀ e e', editionRow s m = some e → editionRow s m' = some e' → e'.endsAt ≤ e.endsAt

/-- The role is held by the winner of the latest edition and by nobody else. -/
def FollowsLatest (categoryId role : Nat) (s : ChampionState) : Prop :=
  ∀ m entry, IsLatest categoryId s m entry → s.guild.holders role = entry.winnerUserId.toList

/-- The last entry consumed that transfers the role. -/
def lastTransfer (role : Nat) (s : ChampionState) : Option TournamentCycleCompletedEvent :=
  ((s.consumed.flatMap resultsOf).filter fun entry ↦
    s.guild.championRoleId entry.categoryId = some role).getLast?

/-- The last entry consumed names the same winner as the latest edition. -/
def LatestLast (categoryId role : Nat) (s : ChampionState) : Prop :=
  ∀ m entry last, IsLatest categoryId s m entry → lastTransfer role s = some last →
    last.winnerUserId = entry.winnerUserId

/-! ## What the bot does -/

section Transfer

variable {g : Guild} {role : Nat} {entry : TournamentCycleCompletedEvent}

/-- Stripping holders leaves those that are not stripped, and everything else. -/
theorem foldl_removeRoles (holders : List Nat) (g : Guild) (role : Nat) :
    holders.foldl (fun g holder ↦ g.removeRoles holder role) g =
      { g with holders :=
          Function.update g.holders role ((g.holders role).filter (· ∉ holders)) } := by
  induction holders generalizing g with
  | nil => simp
  | cons holder holders ih =>
      rw [List.foldl_cons, ih]
      simp only [Guild.removeRoles, Function.update_self, Function.update_idem,
        List.filter_filter]
      congr 2
      apply List.filter_congr
      intro r _
      by_cases hr : r = holder <;> simp [hr]

/-- A transfer changes neither the members nor the roles. -/
theorem transferChampionRole_frame (g : Guild) (entry : TournamentCycleCompletedEvent) :
    (transferChampionRole g entry).members = g.members ∧
      (transferChampionRole g entry).roles = g.roles ∧
      (transferChampionRole g entry).championRoleId = g.championRoleId := by
  rw [transferChampionRole]
  split
  · exact ⟨rfl, rfl, rfl⟩
  · split
    · rw [foldl_removeRoles]
      split
      · exact ⟨rfl, rfl, rfl⟩
      · split <;> exact ⟨rfl, rfl, rfl⟩
    · exact ⟨rfl, rfl, rfl⟩

/-- A transfer of the role leaves it with the winner alone. -/
theorem transferChampionRole_holders (hrole : g.championRoleId entry.categoryId = some role)
    (hmem : role ∈ g.roles) (hwinner : ∀ w ∈ entry.winnerUserId, w ∈ g.members) :
    (transferChampionRole g entry).holders role = entry.winnerUserId.toList := by
  have hstrip : ∀ r ∈ g.holders role, ¬ decide (r ∉ g.holders role) = true := by simp
  simp only [transferChampionRole, hrole, if_pos hmem, foldl_removeRoles,
    List.filter_eq_nil_iff.mpr hstrip]
  cases hw : entry.winnerUserId with
  | none => simp
  | some winner => simp [hwinner winner hw, Guild.addRoles]

/-- A transfer of another role leaves this one alone. -/
theorem transferChampionRole_other (hrole : g.championRoleId entry.categoryId ≠ some role) :
    (transferChampionRole g entry).holders role = g.holders role := by
  rw [transferChampionRole]
  split
  · rfl
  · rename_i role' hrole'
    have hne : role ≠ role' := by
      rintro rfl
      exact hrole hrole'
    split
    · rw [foldl_removeRoles]
      split
      · simp [Function.update_of_ne hne]
      · split <;> simp [Guild.addRoles, Function.update_of_ne hne]
    · rfl

/-- The guild after a message is the guild after its transfers. -/
theorem consume_eq (g : Guild) (m : Event) :
    consume g m = (resultsOf m).foldl transferChampionRole g := by
  cases m with
  | tournamentRollover event =>
      show onEditionRollover event g = _
      rw [onEditionRollover]
      split
      · rename_i hempty
        rw [resultsOf, List.isEmpty_iff.mp hempty.1]
        rfl
      · rfl
  | tournamentEditionResults event =>
      show onEditionResults event g = _
      rw [onEditionResults]
      split
      · rename_i hempty
        rw [resultsOf, List.isEmpty_iff.mp hempty]
        rfl
      · rfl
  | _ => rfl

theorem foldl_transferChampionRole_frame (entries : List TournamentCycleCompletedEvent)
    (g : Guild) :
    (entries.foldl transferChampionRole g).members = g.members ∧
      (entries.foldl transferChampionRole g).roles = g.roles ∧
      (entries.foldl transferChampionRole g).championRoleId = g.championRoleId := by
  induction entries generalizing g with
  | nil => exact ⟨rfl, rfl, rfl⟩
  | cons entry entries ih =>
      obtain ⟨hmembers, hroles, hids⟩ := transferChampionRole_frame g entry
      obtain ⟨hmembers', hroles', hids'⟩ := ih (transferChampionRole g entry)
      exact ⟨hmembers'.trans hmembers, hroles'.trans hroles, hids'.trans hids⟩

/-- After some transfers the role is held by the winner of the last of them that is about
it. -/
theorem foldl_transferChampionRole_holders {entries : List TournamentCycleCompletedEvent}
    {last : TournamentCycleCompletedEvent} (hmem : role ∈ g.roles)
    (hwinners : ∀ entry ∈ entries, ∀ w ∈ entry.winnerUserId, w ∈ g.members)
    (hlast : (entries.filter fun entry ↦
      g.championRoleId entry.categoryId = some role).getLast? = some last) :
    (entries.foldl transferChampionRole g).holders role = last.winnerUserId.toList := by
  induction entries using List.reverseRecOn with
  | nil => simp at hlast
  | append_singleton entries entry ih =>
      rw [List.foldl_append, List.foldl_cons, List.foldl_nil]
      obtain ⟨hmembers, hroles, hids⟩ := foldl_transferChampionRole_frame entries g
      rw [List.filter_append] at hlast
      by_cases hrole : g.championRoleId entry.categoryId = some role
      · have hentry : last = entry := by simpa [hrole] using hlast.symm
        rw [hentry]
        apply transferChampionRole_holders
        · rw [hids]
          exact hrole
        · rw [hroles]
          exact hmem
        · rw [hmembers]
          exact hwinners entry (List.mem_append_right _ (List.mem_singleton_self entry))
      · rw [transferChampionRole_other (by rw [hids]; exact hrole)]
        apply ih
        · exact fun entry' hentry' ↦ hwinners entry' (List.mem_append_left _ hentry')
        · simpa [hrole] using hlast

end Transfer

/-! ## Runs of the system -/

section Run

variable {s s' : ChampionState} {g : Guild} {categoryId role : Nat}

/-- The guild is what the messages consumed so far have made of it. -/
def Transferred (g : Guild) (s : ChampionState) : Prop :=
  s.guild = (s.consumed.flatMap resultsOf).foldl transferChampionRole g

theorem Transferred.step {l : ChampionLabel} (h : Transferred g s)
    (hs : championStep s l = some s') : Transferred g s' := by
  cases l with
  | publish l =>
      obtain rfl := Option.some.inj hs
      exact h
  | consume i =>
      simp only [championStep] at hs
      split at hs
      · rename_i m hm
        obtain rfl := Option.some.inj hs
        show consume s.guild m = _
        rw [consume_eq, h, List.flatMap_append, List.foldl_append, List.flatMap_singleton]
      · cases hs

/-- The category has its role once one of its results has been consumed: that of the last
transfer. -/
theorem exists_lastTransfer {m : Event} {entry : TournamentCycleCompletedEvent}
    (hrole : s.guild.championRoleId categoryId = some role)
    (h : ResultOf categoryId s m entry) : ∃ last, lastTransfer role s = some last := by
  obtain ⟨hm, hentry, hcategory⟩ := h
  apply Option.ne_none_iff_exists'.mp
  rw [lastTransfer, Ne, List.getLast?_eq_none_iff, List.filter_eq_nil_iff]
  intro hnone
  apply hnone entry (List.mem_flatMap.mpr ⟨m, hm, hentry⟩)
  rw [hcategory]
  simpa using hrole

/-- Whoever won last holds the role. -/
theorem Transferred.holders (h : Transferred g s) (hmem : role ∈ g.roles)
    (hwinners : ∀ m ∈ s.consumed, ∀ entry ∈ resultsOf m, ∀ w ∈ entry.winnerUserId, w ∈ g.members)
    {last : TournamentCycleCompletedEvent} (hlast : lastTransfer role s = some last) :
    s.guild.holders role = last.winnerUserId.toList := by
  obtain ⟨_, _, hids⟩ := foldl_transferChampionRole_frame (s.consumed.flatMap resultsOf) g
  rw [lastTransfer, h, hids] at hlast
  rw [h]
  apply foldl_transferChampionRole_holders hmem ?_ hlast
  intro entry hentry w hw
  obtain ⟨m, hm, hentry⟩ := List.mem_flatMap.mp hentry
  exact hwinners m hm entry hentry w hw

end Run

/-- However editions end, drain and publish, and in whatever order their messages are
consumed: at every moment, and so once all of them are, the champion role is held by the
winner of the latest of the editions consumed and by nobody else exactly when the last
transfer of the role names that winner.  The role exists and is the category's, and the
winners are members. -/
theorem followsLatest_iff {s₀ s : ChampionState} {categoryId role : Nat}
    {ls : List ChampionLabel} (hstart : s₀.consumed = [])
    (hrole : s₀.guild.championRoleId categoryId = some role) (hmem : role ∈ s₀.guild.roles)
    (hrun : Run (ofStep championStep) s₀ ls s)
    (hwinners : ∀ m ∈ s.consumed, ∀ entry ∈ resultsOf m, ∀ w ∈ entry.winnerUserId,
      w ∈ s₀.guild.members) :
    FollowsLatest categoryId role s ↔ LatestLast categoryId role s := by
  have hinv : Transferred s₀.guild s := by
    apply hrun.invariant (fun _ _ _ h hs ↦ h.step hs)
    rw [Transferred, hstart]
    rfl
  have hids : s.guild.championRoleId categoryId = some role := by
    rw [hinv, (foldl_transferChampionRole_frame _ _).2.2]
    exact hrole
  constructor
  · intro hfollows m entry last hlatest hlast
    have hholders := hinv.holders hmem hwinners hlast
    rw [hfollows m entry hlatest] at hholders
    cases hl : last.winnerUserId <;> cases he : entry.winnerUserId <;> simp_all
  · intro hlatestLast m entry hlatest
    obtain ⟨last, hlast⟩ := exists_lastTransfer hids hlatest.1
    rw [hinv.holders hmem hwinners hlast, hlatestLast m entry last hlatest hlast]

/-- Two editions of a category: the older one has a run in verification when it ends, the
newer one has none. -/
def stacked : Db where
  editions := (Table.empty.insert fun id ↦
    { id, startedAt := 0, endsAt := 10, status := .awaitingResults }).insert fun id ↦
      { id, startedAt := 10, endsAt := 20, status := .awaitingResults }
  cycles := (Table.empty.insert fun id ↦
    { id, categoryId := 1, mapId := 1, status := .finalizing, startedAt := some 0
      editionId := some 1 }).insert fun id ↦
      { id, categoryId := 1, mapId := 1, status := .finalizing, startedAt := some 10
        editionId := some 2 }
  completions := (Table.empty.insert fun id ↦
    { id, cycleId := 1, userId := 7, mapId := 1, time := 1250, insertedAt := 5 }).insert fun id ↦
      { id, cycleId := 2, userId := 8, mapId := 1, time := 1300, insertedAt := 15
        status := .verified }

/-- The guild of the two winners. -/
def stackedGuild : Guild where
  members := [7, 8]
  roles := [100]
  holders := fun _ ↦ []
  championRoleId := fun _ ↦ some 100

/-- The newer edition is published at once and the older one after its verdict; the bot
consumes the messages as they come. -/
def stackedRun : List ChampionLabel :=
  [.publish (freeTick 20), .publish (.verdict 1 true), .publish (freeTick 21), .consume 0,
    .consume 0, .consume 0]

/-- The messages of the run with the winners they name, and the holders of the role. -/
def winnersNamed (s : ChampionState) : List (Option Nat × List (Nat × Option Nat)) × List Nat :=
  (s.consumed.map fun m ↦ (editionOf m, (resultsOf m).map fun e ↦ (e.categoryId, e.winnerUserId)),
    s.guild.holders 100)

theorem stackedRun_winners :
    (stackedRun.foldlM championStep { db := stacked, guild := stackedGuild }).map winnersNamed =
      some ([(some 1, []), (some 2, [(1, some 8)]), (some 1, [(1, some 7)])], [7]) := by
  decide +kernel

/-- Nothing is left to consume, and the second edition is the latest. -/
theorem stackedRun_editions :
    (stackedRun.foldlM championStep { db := stacked, guild := stackedGuild }).map
        (fun s ↦ (s.inbox.length, s.db.editions.rows.map fun e ↦ (e.id, e.endsAt))) =
      some (0, [(1, 10), (2, 20)]) := by
  decide +kernel

/-- The winner of the older edition takes the role from the winner of the newer one. -/
theorem stackedRun_not_followsLatest :
    ∃ s, stackedRun.foldlM championStep { db := stacked, guild := stackedGuild } = some s ∧
      s.inbox = [] ∧ s.guild.holders 100 = [7] ∧ ¬ FollowsLatest 1 100 s := by
  obtain ⟨s, hs, hwinners⟩ := Option.map_eq_some_iff.mp stackedRun_winners
  have heditions := stackedRun_editions
  rw [hs, Option.map_some, Option.some_inj, Prod.mk.injEq] at heditions
  rw [winnersNamed, Prod.mk.injEq] at hwinners
  refine ⟨s, hs, List.length_eq_zero_iff.mp heditions.1, hwinners.2, fun hfollows ↦ ?_⟩
  have hmem : (some 2, [(1, some 8)]) ∈ s.consumed.map fun m ↦
      (editionOf m, (resultsOf m).map fun e ↦ (e.categoryId, e.winnerUserId)) := by
    rw [hwinners.1]
    simp
  obtain ⟨m, hm, heq⟩ := List.mem_map.mp hmem
  obtain ⟨hedition, hresults⟩ := Prod.mk.inj heq
  have hentry : (1, some 8) ∈ (resultsOf m).map fun e ↦ (e.categoryId, e.winnerUserId) := by
    rw [hresults]
    exact List.mem_singleton_self _
  obtain ⟨entry, hentry, heq⟩ := List.mem_map.mp hentry
  obtain ⟨hcategory, hwinner⟩ := Prod.mk.inj heq
  have hends : ∀ e ∈ s.db.editions.rows, (e.id, e.endsAt) ∈ [(1, 10), (2, 20)] := by
    intro e he
    rw [← heditions.2]
    exact List.mem_map_of_mem he
  have hlatest : IsLatest 1 s m entry := by
    refine ⟨⟨hm, hentry, hcategory⟩, fun m' entry' _ e e' he he' ↦ ?_⟩
    rw [editionRow, hedition, Option.bind_some, Table.get?_eq_some_iff] at he
    obtain ⟨x, _, hx⟩ := Option.bind_eq_some_iff.mp he'
    have h := hends e he.1
    have h' := hends e' (Table.mem_of_get? hx)
    have hid : e.id = 2 := he.2
    simp only [List.mem_cons, Prod.mk.injEq, hid, List.not_mem_nil, or_false] at h h'
    omega
  have hholders := hfollows m entry hlatest
  rw [hwinners.2, hwinner] at hholders
  exact absurd hholders (by decide)

/-- The rule at that run. -/
theorem stackedRun_followsLatest_iff :
    ∃ s, stackedRun.foldlM championStep { db := stacked, guild := stackedGuild } = some s ∧
      (FollowsLatest 1 100 s ↔ LatestLast 1 100 s) := by
  obtain ⟨s, hs, hwinners⟩ := Option.map_eq_some_iff.mp stackedRun_winners
  rw [winnersNamed, Prod.mk.injEq] at hwinners
  refine ⟨s, hs, followsLatest_iff rfl rfl (List.mem_singleton_self _)
    (Run.ofStep_iff.mpr hs) ?_⟩
  intro m hm entry hentry w hw
  have hmem := List.mem_map_of_mem (f := fun m ↦
    (editionOf m, (resultsOf m).map fun e ↦ (e.categoryId, e.winnerUserId))) hm
  rw [hwinners.1] at hmem
  have hmem' := List.mem_map_of_mem (f := fun e ↦ (e.categoryId, e.winnerUserId)) hentry
  rw [Option.mem_def] at hw
  rw [hw] at hmem'
  simp only [List.mem_cons, Prod.mk.injEq, List.not_mem_nil, or_false] at hmem
  rcases hmem with ⟨_, h⟩ | ⟨_, h⟩ | ⟨_, h⟩ <;> rw [h] at hmem' <;>
    simp_all [stackedGuild]

end Genjishimada.Tournaments
