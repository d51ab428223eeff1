import Genjishimada.Services.Base
import Genjishimada.Services.Rewards

/-!
# `services/tournament_outbox_service.py`

One tick of the outbox poller.  Inside one transaction it first drains the editions
that await results and then publishes every unpublished outbox row; the XP
notifications follow after the commit.

The tick is a program over a `World`.  Its inputs are the clock and the rows that
other transactions hold, which `SKIP LOCKED` passes over; a row the tick itself has
inserted is held by nobody.
-/

namespace Genjishimada.Services

open Library Sdk Repository

variable {ε : Type}

/-! ## Outbox rows and events -/

/-- The two structs an outbox row decodes to. -/
inductive OutboxEvent where
  | rollover (e : TournamentRolloverEvent)
  | editionResults (e : TournamentEditionResultsEvent)
deriving DecidableEq, Repr

namespace OutboxEvent

def editionId : OutboxEvent → Nat
  | rollover e => e.editionId
  | editionResults e => e.editionId

def results : OutboxEvent → List TournamentCycleCompletedEvent
  | rollover e => e.results
  | editionResults e => e.results

def body : OutboxEvent → Event
  | rollover e => .tournamentRollover e
  | editionResults e => .tournamentEditionResults e

end OutboxEvent

/-- `msgspec.convert(payload, TournamentRolloverEvent)`: the three required fields,
and `results_pending` with its default.  A started cycle needs its map code. -/
def convertRollover (p : Payload) : Option TournamentRolloverEvent :=
  match p.editionId, p.results, p.started, p.resultsPending with
  | .value editionId, .value results, .value started, .value resultsPending =>
      if started.all fun s ↦ s.mapCode.isSome then
        some { editionId, results, started, resultsPending }
      else none
  | .value editionId, .value results, .value started, .absent =>
      if started.all fun s ↦ s.mapCode.isSome then some { editionId, results, started } else none
  | _, _, _, _ => none

/-- `msgspec.convert(payload, TournamentEditionResultsEvent)`; other keys are ignored. -/
def convertEditionResults (p : Payload) : Option TournamentEditionResultsEvent :=
  match p.editionId, p.results with
  | .value editionId, .value results => some { editionId, results }
  | _, _ => none

/-- `msgspec.json.encode` of a rollover. -/
def encodeRollover (e : TournamentRolloverEvent) : Payload where
  editionId := .value e.editionId
  results := .value e.results
  started := .value e.started
  resultsPending := .value e.resultsPending

/-- `msgspec.json.encode` of deferred results. -/
def encodeEditionResults (e : TournamentEditionResultsEvent) : Payload where
  editionId := .value e.editionId
  results := .value e.results

/-- Decoding reads back what was encoded. -/
theorem convertEditionResults_encode (e : TournamentEditionResultsEvent) :
    convertEditionResults (encodeEditionResults e) = some e := rfl

/-- Decoding reads a rollover back when its started cycles have their map codes. -/
theorem convertRollover_encode {e : TournamentRolloverEvent}
    (h : ∀ s ∈ e.started, s.mapCode.isSome) : convertRollover (encodeRollover e) = some e := by
  simp only [convertRollover, encodeRollover]
  rw [if_pos (List.all_eq_true.mpr h)]

/-- What `_build_event` raises. -/
inductive BuildEventError where
  | keyError
  | validationError
deriving DecidableEq, Repr

/-- The same exception, leaving the service. -/
def BuildEventError.toFailure : BuildEventError → Failure ε
  | keyError => .keyError
  | validationError => .validationError

/-- `_EVENT_ROUTING[event_type]` and the conversion to its struct. -/
def buildEvent (row : PendingTransition) : Except BuildEventError (RoutingKey × OutboxEvent) :=
  match row.eventType with
  | .editionRollover =>
      match convertRollover row.payload with
      | some e => .ok (.tournamentRollover, .rollover e)
      | none => .error .validationError
  | .editionResults =>
      match convertEditionResults row.payload with
      | some e => .ok (.tournamentResults, .editionResults e)
      | none => .error .validationError
  | .cycleStarted | .cycleCompleted => .error .keyError

/-- `_idempotency_key`: rollover rows are START announcements. -/
def idempotencyKey (eventType : TransitionEventType) (editionId : Nat) : IdempotencyKey :=
  if eventType = .editionResults then .tournamentResults editionId
  else .tournamentRolloverStart editionId

/-! ## Results -/

/-- The winner is the first standing, when it is ranked first. -/
def winnerOf (standings : List TournamentLeaderboardEntryResponse) : Option Nat :=
  match standings with
  | s :: _ => if s.rank = 1 then some s.userId else none
  | [] => none

/-- `_build_cycle_completed_event`: the live leaderboard. -/
def buildCycleCompletedEvent (cycleId categoryId : Nat) (db : Db) : TournamentCycleCompletedEvent :=
  let standings := fetchLeaderboard cycleId db
  { cycleId, categoryId, standings, winnerUserId := winnerOf standings }

/-- The results of every finalizing child cycle of an edition. -/
def buildResults (editionId : Nat) (db : Db) : List TournamentCycleCompletedEvent :=
  (fetchEditionChildCycles editionId db).map fun child ↦
    buildCycleCompletedEvent child.id child.categoryId db

/-- `_write_drained_results_row`: the deferred results as an outbox row, and the
flip to `completed`. -/
def writeDrainedResultsRow (editionId : Nat) (now : Int) (db : Db) : Db :=
  let resultsEvent : TournamentEditionResultsEvent :=
    { editionId, results := buildResults editionId db }
  completeEdition editionId
    (createPendingTransition none (some editionId) .editionResults
      (encodeEditionResults resultsEvent) now db)

/-! ## The drain state machine -/

/-- First tick with runs still in verification: announce the start, hold the results. -/
def announceStart (editionId : Nat) (started : List TournamentCycleStartedEvent) :
    Service Db Event ε (List XpGrantEvent) := do
  execute (markEditionStartAnnounced editionId)
  let rollover : TournamentRolloverEvent :=
    { editionId, results := [], started, resultsPending := true }
  let _ ← publishMessage .tournamentRollover (.tournamentRollover rollover) {}
    (some (.tournamentRollover editionId))
  return []

/-- First tick with nothing in verification: grants, one combined rollover, done. -/
def publishCombined (editionId : Nat) (started : List TournamentCycleStartedEvent) :
    Service Db Event ε (List XpGrantEvent) := do
  let children ← query (fetchEditionChildCycles editionId)
  let entries ← children.mapM fun child ↦ do
    let entry ← query (buildCycleCompletedEvent child.id child.categoryId)
    let events ← statements (awardCyclePlacements entry)
    return (entry, events)
  let results := entries.map Prod.fst
  let streakEvents ← statements (awardEditionStreaks results)
  let rollover : TournamentRolloverEvent := { editionId, results, started, resultsPending := false }
  let _ ← publishMessage .tournamentRollover (.tournamentRollover rollover) {}
    (some (.tournamentRollover editionId))
  execute (completeEdition editionId)
  return (entries.map Prod.snd).flatten ++ streakEvents

/-- One edition of `process_awaiting_results_editions`. -/
def processEdition (now : Int) (edition : Edition) : Service Db Event ε (List XpGrantEvent) := do
  let inflight ← query (countInflightVerifications edition.id)
  let started ← query fetchActiveEditionStartedCycles
  if ¬ edition.startAnnounced ∧ inflight > 0 then announceStart edition.id started
  else if ¬ edition.startAnnounced ∧ inflight = 0 then publishCombined edition.id started
  else if inflight = 0 then
    execute (writeDrainedResultsRow edition.id now)
    return []
  else return []

def processAwaitingResultsEditions (now : Int) (locked : Nat → Bool) :
    Service Db Event ε (List XpGrantEvent) := do
  let editions ← query (fetchAwaitingResultsEditions locked)
  let events ← editions.mapM (processEdition now)
  return events.flatten

/-! ## The poll -/

/-- Grants for, publishes and marks one outbox row. -/
def publishTransition (row : PendingTransition) : Service Db Event ε (List XpGrantEvent) := do
  let (routingKey, event) ← (match buildEvent row with
    | .ok built => pure built
    | .error e => throw e.toFailure)
  let placements ← statements (event.results.mapM awardCyclePlacements)
  let streaks ← statements (awardEditionStreaks event.results)
  let _ ← publishMessage routingKey event.body {}
    (some (idempotencyKey row.eventType event.editionId))
  execute (markTransitionPublished row.id)
  return placements.flatten ++ streaks

/-- An event that cannot be published is logged and dropped. -/
def publishXpEvent (event : XpGrantEvent) : Service Db Event ε PUnit :=
  tryCatch (do let _ ← publishMessage .xpGrant (.xpGrant event) {} none) fun _ ↦ pure ⟨⟩

/-- `LootboxService.publish_xp_events`. -/
def publishXpEvents (events : List XpGrantEvent) : Service Db Event ε PUnit :=
  events.forM publishXpEvent

theorem publishXpEvent_keepsDb (event : XpGrantEvent) :
    KeepsDb (publishXpEvent event : Service Db Event ε PUnit) := by
  intro w
  have hkeep := publishMessage_keepsDb (ε := ε) .xpGrant (.xpGrant event : Event) {} none w
  rw [publishXpEvent, tryCatch_apply, bind_apply]
  cases h : (publishMessage .xpGrant (.xpGrant event) {} none : Service Db Event ε _) w with
  | ok job w' =>
      rw [h] at hkeep
      exact hkeep
  | error e w' =>
      rw [h] at hkeep
      exact hkeep

theorem publishXpEvents_keepsDb (events : List XpGrantEvent) :
    KeepsDb (publishXpEvents events : Service Db Event ε PUnit) := by
  induction events with
  | nil => exact KeepsDb.pure _
  | cons event events ih => exact KeepsDb.bind (publishXpEvent_keepsDb event) fun _ ↦ ih

/-- The transaction of one tick. -/
def drainOutbox (now : Int) (lockedEditions lockedTransitions : Nat → Bool) :
    Service Db Event ε (List XpGrantEvent) := do
  let before ← query fun db ↦ db.pendingTransitions.nextId
  let drained ← processAwaitingResultsEditions now lockedEditions
  let rows ← query (fetchUnpublishedTransitions fun id ↦ id < before && lockedTransitions id)
  let published ← rows.mapM publishTransition
  return drained ++ published.flatten

def publishPendingTransitions (now : Int) (lockedEditions lockedTransitions : Nat → Bool) :
    Service Db Event ε PUnit := do
  let events ← inTransaction (drainOutbox now lockedEditions lockedTransitions)
  publishXpEvents events

end Genjishimada.Services
