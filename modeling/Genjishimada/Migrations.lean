import Genjishimada.Repository.Tournaments

/-!
# The PL/pgSQL functions of `migrations/`

`next_grid_boundary` (0024), `select_eligible_map` (0021) and
`process_edition_transitions` as 0025 leaves it, which `pg_cron` runs.

A transition is one transaction behind an advisory lock, so it is a single step of
the database.  `now`, the outcomes of `ORDER BY random()` and the time zone rules
are arguments.
-/

namespace Genjishimada.Migrations

open Library Sdk Repository

/-! ## The grid -/

/-- `AT TIME ZONE`, both ways, as the server's time zone database has it. -/
structure TimeZones where
  /-- The wall-clock time of an instant. -/
  toLocal : String → Int → Int
  /-- The instant of a wall-clock time. -/
  toInstant : String → Int → Int

/-- `EXTRACT(DOW FROM …)` of a day since the epoch, which was a Thursday. -/
def dayOfWeek (day : Int) : Int := (day + 4) % 7

def nextGridBoundary (zones : TimeZones) (start : Int) (weekday timeOfDay : Nat) (tz : String)
    (period : Int) : Int :=
  let day := zones.toLocal tz start / 86400
  let anchorDay := day + (weekday - dayOfWeek day + 7) % 7
  let candidate := zones.toInstant tz (anchorDay * 86400 + timeOfDay)
  if candidate ≤ start then candidate + period else candidate

/-! ## Map selection -/

/-- A random eligible map of the category, or else the least recently used one. -/
def selectEligibleMap (categoryId : Nat) (now : Int) (random : Shuffle CoreMap) (db : Db) :
    Option Nat :=
  (fetchCategory categoryId db).bind fun cat ↦
    ((fetchEligibleMaps cat.difficulties db.config.blacklistWeeks [] now random db).head? <|>
      fetchLeastRecentlyUsedMap cat.difficulties db).map CoreMap.id

/-! ## `process_edition_transitions` -/

/-- The debug override, or else the cadence. -/
def editionPeriod (cfg : Config) : Int :=
  match cfg.debugCycleSeconds with
  | some secs => secs
  | none => if cfg.cadence = .biweekly then weeks 2 else weeks 1

/-- The active edition whose boundary is reached, the earliest if there are several. -/
def dueEdition (now : Int) (db : Db) : Option Edition :=
  (orderBy Edition.endsAt (db.editions.select fun e ↦ e.status = .active ∧ e.endsAt ≤ now)).head?

/-- (a) Stops new submissions on every child cycle. -/
def finalizeChildren (editionId : Nat) (db : Db) : Db :=
  { db with
    cycles := db.cycles.modify
      (fun cy ↦ cy.editionId = some editionId ∧ (cy.status = .active ∨ cy.status = .finalizing))
      fun cy ↦ { cy with status := .finalizing } }

/-- (b) Flips the edition; results are for the poller to publish. -/
def awaitResults (editionId : Nat) (db : Db) : Db :=
  { db with
    editions := db.editions.modify (fun e ↦ e.id = editionId)
      fun e ↦ { e with status := .awaitingResults } }

/-- (a) and (b). -/
def closeEdition (editionId : Nat) (db : Db) : Db :=
  awaitResults editionId (finalizeChildren editionId db)

/-- The child cycle of one category, on a freshly selected map. -/
def createChild (editionId : Nat) (startedAt now : Int) (random : Nat → Shuffle CoreMap)
    (db : Db) (cat : Category) : Db :=
  match selectEligibleMap cat.id now (random cat.id) db with
  | none => db
  | some mapId => (createCycleForEdition editionId cat.id mapId startedAt db).2

/-- The active categories in the order the loop visits them. -/
def activeCategories (db : Db) : List Category :=
  orderBy Category.id (db.categories.select Category.isActive)

/-- (c) The next edition, which starts exactly where the last one ends. -/
def createNextEdition (period : Int) (prev : Edition) (now : Int)
    (random : Nat → Shuffle CoreMap) (db : Db) : Db :=
  let (next, db) := createEdition prev.endsAt (prev.endsAt + period) db
  (activeCategories db).foldl (createChild next.id prev.endsAt now random) db

/-- `lockFree` is whether `pg_try_advisory_xact_lock` succeeds. -/
def processEditionTransitions (lockFree : Bool) (now : Int) (random : Nat → Shuffle CoreMap)
    (db : Db) : Db :=
  if ¬ lockFree then db
  else
    match dueEdition now db with
    | none => db
    | some edition =>
        if db.config.transitionsPaused then closeEdition edition.id db
        else
          createNextEdition (editionPeriod db.config) edition now random (closeEdition edition.id db)

end Genjishimada.Migrations
