import Genjishimada.Tournaments.Editions

/-!
# The grid of edition boundaries

A bootstrap composes the anchor's weekday and time of day in the anchor's zone and looks up the
instant; from there on editions follow each other at a fixed distance in seconds.  The clock of
the zone shows the anchor at the next boundary exactly if it is as far from UTC then as it was
at the one before.
-/

namespace Genjishimada.Tournaments

open Library Sdk Repository Migrations Services

/-! ## Boundaries -/

section Anchor

variable (zones : TimeZones) (config : Config)

/-- How far the clock of the anchor's zone is ahead of UTC. -/
def offsetAt (t : Int) : Int := zones.toLocal config.anchorTz t - t

/-- The clock of the anchor's zone shows the anchor's weekday and time of day. -/
def OnAnchor (t : Int) : Prop :=
  dayOfWeek (zones.toLocal config.anchorTz t / 86400) = config.anchorWeekday ∧
    zones.toLocal config.anchorTz t % 86400 = config.anchorTime

/-- The wall-clock time a bootstrap composes: the next day of the anchor's weekday, today
included. -/
def anchorLocal (now : Int) : Int :=
  let day := zones.toLocal config.anchorTz now / 86400
  (day + (config.anchorWeekday - dayOfWeek day + 7) % 7) * 86400 + config.anchorTime

/-- How far ahead of UTC the zone was taken to be when that time was looked up. -/
def anchorOffset (now : Int) : Int :=
  anchorLocal zones config now - zones.toInstant config.anchorTz (anchorLocal zones config now)

/-- Clocks are less than a day ahead of UTC or behind it. -/
structure Civil (zones : TimeZones) (tz : String) : Prop where
  toLocal : ∀ t, -86400 < zones.toLocal tz t - t ∧ zones.toLocal tz t - t < 86400
  toInstant : ∀ l, -86400 < l - zones.toInstant tz l ∧ l - zones.toInstant tz l < 86400

end Anchor

/-! ## The machine -/

inductive GridLabel where
  | bootstrap (now : Int) (random : Nat → Shuffle CoreMap)
  | pause (paused : Bool)
  | tick (lockFree : Bool) (now : Int) (random : Nat → Shuffle CoreMap)

def gridStep (zones : TimeZones) (db : Db) : GridLabel → Db
  | .bootstrap now random => (final (bootstrapEdition zones now random { db })).db
  | .pause paused => setTransitionsPaused paused db
  | .tick lockFree now random => processEditionTransitions lockFree now random db

/-- The instant a boundary of the step is computed from is before it. -/
def GridLabel.Before : GridLabel → Int → Prop
  | .bootstrap now _, startedAt => now < startedAt
  | .pause _, _ | .tick _ _ _, _ => True

/-- The editions the step opens start and end on the anchor, each boundary after the instant it
was computed from. -/
def Placed (zones : TimeZones) (db : Db) (l : GridLabel) (db' : Db) : Prop :=
  ∀ e ∈ db'.editions.rows, db.editions.nextId ≤ e.id →
    OnAnchor zones db.config e.startedAt ∧ OnAnchor zones db.config e.endsAt ∧
      l.Before e.startedAt ∧ e.startedAt < e.endsAt

/-- A bootstrap is not refused. -/
def Opens (db : Db) : Prop :=
  fetchActiveEdition db = none ∧ ∀ cat ∈ db.categories.rows, cat.isActive = true → HasMap db cat

/-- Where the step opens an edition, the zone is as far ahead of UTC at its start as it was taken
to be (the wall-clock time is not skipped that day), and as far at its end as at its start. -/
def KeepsOffset (zones : TimeZones) (db : Db) : GridLabel → Prop
  | .bootstrap now _ => Opens db →
      let start := bootstrapStart zones now db.config
      offsetAt zones db.config start = anchorOffset zones db.config now ∧
        offsetAt zones db.config (start + periodFromConfig db.config) =
          anchorOffset zones db.config now
  | .pause _ => True
  | .tick lockFree now _ => lockFree = true → db.config.transitionsPaused = false →
      ∀ e, dueEdition now db = some e →
        offsetAt zones db.config (e.endsAt + editionPeriod db.config) =
          offsetAt zones db.config e.endsAt

/-! ## One boundary -/

section Boundary

variable {zones : TimeZones} {config : Config}

theorem periodFromConfig_eq (h : config.debugCycleSeconds = none) :
    periodFromConfig config = editionPeriod config := by
  rw [periodFromConfig, editionPeriod, h]
  cases config.cadence <;> rfl

/-- A period is one week or two. -/
theorem period_cases (h : config.debugCycleSeconds = none) :
    editionPeriod config = 604800 ∨ editionPeriod config = 1209600 := by
  rw [editionPeriod, h]
  cases config.cadence
  · exact .inl rfl
  · exact .inr rfl

/-- Whole weeks from an instant whose clock was to show the anchor, it shows the anchor if it is
as far ahead of UTC. -/
theorem onAnchor_iff_offset {c l t : Int} (hcivil : Civil zones config.anchorTz)
    (hday : dayOfWeek (l / 86400) = config.anchorWeekday) (htime : l % 86400 = config.anchorTime)
    (hlc : -86400 < l - c ∧ l - c < 86400) (hweeks : (t - c) % 604800 = 0) :
    OnAnchor zones config t ↔ offsetAt zones config t = l - c := by
  obtain ⟨hlow, hhigh⟩ := hcivil.toLocal t
  rw [OnAnchor, offsetAt, ← hday, ← htime, dayOfWeek, dayOfWeek]
  omega

theorem anchorLocal_spec (zones : TimeZones) (now : Int) (hweekday : config.anchorWeekday < 7)
    (htime : config.anchorTime < 86400) :
    dayOfWeek (anchorLocal zones config now / 86400) = config.anchorWeekday ∧
      anchorLocal zones config now % 86400 = config.anchorTime := by
  rw [anchorLocal, dayOfWeek, dayOfWeek]
  omega

theorem bootstrapStart_spec (now : Int) (hcivil : Civil zones config.anchorTz)
    (hproduction : config.debugCycleSeconds = none) (hweekday : config.anchorWeekday < 7) :
    now < bootstrapStart zones now config ∧
      (bootstrapStart zones now config -
        zones.toInstant config.anchorTz (anchorLocal zones config now)) % 604800 = 0 := by
  have hperiod : periodFromConfig config = 604800 ∨ periodFromConfig config = 1209600 := by
    rw [periodFromConfig_eq hproduction]
    exact period_cases hproduction
  have hnow := hcivil.toLocal now
  have hinstant := hcivil.toInstant (anchorLocal zones config now)
  have hstart : bootstrapStart zones now config =
      if zones.toInstant config.anchorTz (anchorLocal zones config now) ≤ now then
        zones.toInstant config.anchorTz (anchorLocal zones config now) + periodFromConfig config
      else zones.toInstant config.anchorTz (anchorLocal zones config now) := by
    rw [bootstrapStart, hproduction]
    rfl
  have hlocal : zones.toLocal config.anchorTz now - 86400 < anchorLocal zones config now := by
    rw [anchorLocal, dayOfWeek]
    omega
  rw [hstart]
  split <;> omega

end Boundary

/-! ## What a step opens -/

/-- The editions after a step are those before it, one of which may have been closed, and `new`. -/
structure EditionsFrom (db db' : Db) (new : List Edition) : Prop where
  rows : ∀ e ∈ db'.editions.rows, e ∈ new ∨ ∃ e₀ ∈ db.editions.rows, e₀.id = e.id ∧
    e₀.endsAt = e.endsAt ∧ (e.status = .active → e₀.status = .active)
  new_mem : ∀ e ∈ new, e ∈ db'.editions.rows ∧ e.id = db.editions.nextId
  config : db'.config = { db.config with transitionsPaused := db'.config.transitionsPaused }

section Step

variable {zones : TimeZones} {db db' : Db} {l : GridLabel} {new : List Edition}

theorem EditionsFrom.of_same (heditions : db'.editions = db.editions)
    (hconfig : db'.config = { db.config with transitionsPaused := db'.config.transitionsPaused }) :
    EditionsFrom db db' [] where
  rows e he := .inr ⟨e, heditions ▸ he, rfl, rfl, id⟩
  new_mem e he := absurd he List.not_mem_nil
  config := hconfig

theorem rows_closeEdition {editionId : Nat} {e : Edition}
    (he : e ∈ (closeEdition editionId db).editions.rows) : ∃ e₀ ∈ db.editions.rows, e₀.id = e.id ∧
      e₀.endsAt = e.endsAt ∧ (e.status = .active → e₀.status = .active) := by
  obtain ⟨e₀, he₀, rfl⟩ := List.mem_map.mp he
  refine ⟨e₀, he₀, ?_⟩
  split
  · exact ⟨rfl, rfl, fun h ↦ by cases h⟩
  · exact ⟨rfl, rfl, id⟩

/-- The three things a step can do about editions: open none, which leaves nothing to ask of the
zone, or open one at the anchor or where another ends. -/
theorem gridStep_cases (zones : TimeZones) (db : Db) (l : GridLabel) :
    (EditionsFrom db (gridStep zones db l) [] ∧ KeepsOffset zones db l) ∨
    (∃ now random, l = .bootstrap now random ∧ Opens db ∧
      EditionsFrom db (gridStep zones db l)
        [{ id := db.editions.nextId, startedAt := bootstrapStart zones now db.config
           endsAt := bootstrapStart zones now db.config + periodFromConfig db.config }]) ∨
    ∃ now random e, l = .tick true now random ∧ db.config.transitionsPaused = false ∧
      dueEdition now db = some e ∧ EditionsFrom db (gridStep zones db l)
        [{ id := db.editions.nextId, startedAt := e.endsAt
           endsAt := e.endsAt + editionPeriod db.config }] := by
  cases l with
  | pause paused => exact .inl ⟨.of_same rfl rfl, trivial⟩
  | bootstrap now random =>
      rcases bootstrapEdition_cases zones now random db with ⟨hactive, h⟩ | ⟨hidle, h⟩
      · refine .inl ⟨?_, fun hopens ↦ absurd hopens.1 hactive⟩
        rw [gridStep, h]
        exact .of_same rfl rfl
      · rcases bootstrapInsert_cases zones now random db with
          ⟨hmaps, started, db₂, _, hrun, hinsert⟩ | ⟨hnot, hinsert⟩
        · refine .inr (.inl ⟨now, random, rfl, ⟨hidle, hmaps⟩, ?_⟩)
          rw [gridStep, h, hinsert, childRun_eq hrun]
          refine ⟨fun e he ↦ ?_, fun e he ↦ ?_, rfl⟩
          · rcases List.mem_append.mp he with he | he
            · exact .inr ⟨e, he, rfl, rfl, id⟩
            · exact .inl he
          · exact ⟨List.mem_append_right _ he, by rw [List.mem_singleton.mp he]⟩
        · refine .inl ⟨?_, fun hopens ↦ absurd hopens.2 hnot⟩
          rw [gridStep, h, hinsert]
          exact .of_same rfl rfl
  | tick lockFree now random =>
      rcases processEditionTransitions_cases lockFree now random db with
        ⟨hnone, h⟩ | ⟨e, _, _, hpaused, h⟩ | ⟨e, hlock, hdue, hpaused, hrun⟩
      · refine .inl ⟨?_, fun hlock _ e hdue ↦ ?_⟩
        · rw [gridStep, h]
          exact .of_same rfl rfl
        · rcases hnone with hnone | hnone
          · rw [hlock] at hnone
            cases hnone
          · rw [hdue] at hnone
            cases hnone
      · refine .inl ⟨?_, fun _ hrunning ↦ ?_⟩
        · rw [gridStep, h]
          exact ⟨fun e he ↦ .inr (rows_closeEdition he), fun e he ↦ absurd he List.not_mem_nil, rfl⟩
        · rw [hpaused] at hrunning
          cases hrunning
      · refine .inr (.inr ⟨now, random, e, by rw [hlock], hpaused, hdue, ?_⟩)
        rw [gridStep, childRun_eq hrun]
        refine ⟨fun e' he' ↦ ?_, fun e' he' ↦ ?_, rfl⟩
        · rcases List.mem_append.mp he' with he' | he'
          · exact .inr (rows_closeEdition he')
          · exact .inl he'
        · exact ⟨List.mem_append_right _ he', by rw [List.mem_singleton.mp he']⟩

/-- Only the new editions count. -/
theorem placed_iff (h : EditionsFrom db db' new) : Placed zones db l db' ↔
    ∀ e ∈ new, OnAnchor zones db.config e.startedAt ∧ OnAnchor zones db.config e.endsAt ∧
      l.Before e.startedAt ∧ e.startedAt < e.endsAt := by
  constructor
  · intro hplaced e he
    obtain ⟨hmem, hid⟩ := h.new_mem e he
    exact hplaced e hmem hid.ge
  · intro hnew e he hid
    rcases h.rows e he with he | ⟨e₀, he₀, hid₀, _⟩
    · exact hnew e he
    · have hlt : e₀.id < db.editions.nextId := db.editions.fresh e₀ he₀
      omega

end Step

/-! ## Runs -/

/-- The configuration of the run, and where its active editions end. -/
structure GridInv (zones : TimeZones) (config : Config) (db : Db) : Prop where
  config_eq : db.config = { config with transitionsPaused := db.config.transitionsPaused }
  onAnchor : ∀ e ∈ db.editions.rows, e.status = .active → OnAnchor zones config e.endsAt

section Runs

variable {zones : TimeZones} {config : Config} {db : Db} {l : GridLabel}

theorem GridInv.onAnchor_iff (h : GridInv zones config db) (t : Int) :
    OnAnchor zones db.config t ↔ OnAnchor zones config t := by
  rw [h.config_eq]
  exact Iff.rfl

theorem GridInv.step (h : GridInv zones config db)
    (hplaced : Placed zones db l (gridStep zones db l)) :
    GridInv zones config (gridStep zones db l) := by
  have hfrom : ∃ new, EditionsFrom db (gridStep zones db l) new := by
    rcases gridStep_cases zones db l with ⟨h, _⟩ | ⟨_, _, _, _, h⟩ | ⟨_, _, _, _, _, _, h⟩ <;>
      exact ⟨_, h⟩
  obtain ⟨new, hfrom⟩ := hfrom
  constructor
  · rw [hfrom.config, h.config_eq]
  · intro e he hactive
    rcases hfrom.rows e he with hnew | ⟨e₀, he₀, _, hends, hkept⟩
    · obtain ⟨hmem, hid⟩ := hfrom.new_mem e hnew
      exact (h.onAnchor_iff _).mp (hplaced e hmem hid.ge).2.1
    · rw [← hends]
      exact h.onAnchor e₀ he₀ (hkept hactive)

/-- Under the configuration of the run, a step places its boundaries exactly if it keeps the
offset. -/
theorem GridInv.placed_iff_keepsOffset (h : GridInv zones config db)
    (hcivil : Civil zones config.anchorTz) (hproduction : config.debugCycleSeconds = none)
    (hweekday : config.anchorWeekday < 7) (htime : config.anchorTime < 86400) :
    Placed zones db l (gridStep zones db l) ↔ KeepsOffset zones db l := by
  have hcivil' : Civil zones db.config.anchorTz := by rwa [h.config_eq]
  have hproduction' : db.config.debugCycleSeconds = none := by rwa [h.config_eq]
  have hweekday' : db.config.anchorWeekday < 7 := by rwa [h.config_eq]
  have htime' : db.config.anchorTime < 86400 := by rwa [h.config_eq]
  have hperiod := period_cases hproduction'
  rcases gridStep_cases zones db l with
    ⟨hfrom, hkeeps⟩ | ⟨now, random, rfl, hopens, hfrom⟩ | ⟨now, random, e, rfl, hrunning, hdue, hfrom⟩
  · exact iff_of_true ((placed_iff hfrom).mpr fun e he ↦ absurd he List.not_mem_nil) hkeeps
  · rw [placed_iff hfrom, List.forall_mem_singleton]
    obtain ⟨hbefore, hweeks⟩ := bootstrapStart_spec now hcivil' hproduction' hweekday'
    obtain ⟨hday, hclock⟩ := anchorLocal_spec zones now hweekday' htime'
    have hinstant := hcivil'.toInstant (anchorLocal zones db.config now)
    have hstart := onAnchor_iff_offset hcivil' hday hclock hinstant hweeks
    rw [← periodFromConfig_eq hproduction'] at hperiod
    have hends := onAnchor_iff_offset (t := bootstrapStart zones now db.config +
      periodFromConfig db.config) hcivil' hday hclock hinstant (by omega)
    rw [hstart, hends]
    constructor
    · exact fun hplaced _ ↦ ⟨hplaced.1, hplaced.2.1⟩
    · intro hkeeps
      obtain ⟨hfirst, hsecond⟩ := hkeeps hopens
      exact ⟨hfirst, hsecond, hbefore, by simp only; omega⟩
  · rw [placed_iff hfrom, List.forall_mem_singleton]
    obtain ⟨he, hactive, _⟩ := dueEdition_spec hdue
    have hon := (h.onAnchor_iff _).mpr (h.onAnchor e he hactive)
    have hoffset := hcivil'.toLocal e.endsAt
    have hends := onAnchor_iff_offset (t := e.endsAt + editionPeriod db.config) hcivil' hon.1 hon.2
      hoffset (by omega)
    rw [hends]
    constructor
    · intro hplaced _ _ e' hdue'
      obtain rfl := Option.some.inj (hdue.symm.trans hdue')
      exact hplaced.2.1
    · intro hkeeps
      exact ⟨hon, hkeeps rfl hrunning e hdue, trivial, by simp only; omega⟩

end Runs

/-- However bootstraps, ticks and the pause switch follow each other, all boundaries of a run are
on the anchor and after the instants they are computed from exactly if each step that opens an
edition keeps the offset of the anchor's zone. -/
theorem boundaries_onAnchor_iff (zones : TimeZones) (db db' : Db) (ls : List GridLabel)
    (hcivil : Civil zones db.config.anchorTz) (hproduction : db.config.debugCycleSeconds = none)
    (hweekday : db.config.anchorWeekday < 7) (htime : db.config.anchorTime < 86400)
    (hidle : ∀ e ∈ db.editions.rows, e.status ≠ .active) :
    Run (fun db l db' ↦ gridStep zones db l = db' ∧ Placed zones db l db') db ls db' ↔
      Run (Guarded (KeepsOffset zones) fun db l db' ↦ gridStep zones db l = db') db ls db' := by
  apply Run.congr (GridInv zones db.config)
  · rintro db₀ l _ hinv
    constructor
    · rintro ⟨rfl, hplaced⟩
      exact ⟨(hinv.placed_iff_keepsOffset hcivil hproduction hweekday htime).mp hplaced, rfl⟩
    · rintro ⟨hkeeps, rfl⟩
      exact ⟨rfl, (hinv.placed_iff_keepsOffset hcivil hproduction hweekday htime).mpr hkeeps⟩
  · rintro db₀ l _ hinv ⟨rfl, hplaced⟩
    exact hinv.step hplaced
  · exact ⟨rfl, fun e he hactive ↦ absurd hactive (hidle e he)⟩

/-- A zone whose clocks are put forward by an hour eleven days into 1970. -/
def summerTime : TimeZones where
  toLocal _ t := if t < 1000000 then t - 18000 else t - 14400
  toInstant _ l := if l < 982000 then l + 18000 else l + 14400

theorem civil_summerTime (tz : String) : Civil summerTime tz := by
  constructor
  · intro t
    rw [summerTime]
    dsimp only
    split <;> omega
  · intro l
    rw [summerTime]
    dsimp only
    split <;> omega

/-- One category and one map; editions start on Sundays at midnight. -/
def sundays : Db where
  config := { anchorWeekday := 0, anchorTz := "America/New_York" }
  categories := Table.empty.insert fun id ↦ { id, name := "Easy", difficulties := [.easy] }
  maps := Table.empty.insert fun id ↦ { id, code := some "ABCD", difficulty := .easy }

def sundaySteps : List GridLabel :=
  [.bootstrap 0 fun _ ↦ default, .tick true 882000 fun _ ↦ default]

/-- The second edition ends on a Sunday at one. -/
theorem sundays_not_placed :
    ¬ ∃ db', Run (fun db l db' ↦ gridStep summerTime db l = db' ∧ Placed summerTime db l db')
      sundays sundaySteps db' := by
  rintro ⟨db', hrun⟩
  obtain ⟨_, ⟨rfl, _⟩, hrun⟩ := Run.cons_iff.mp hrun
  obtain ⟨_, ⟨rfl, hplaced⟩, _⟩ := Run.cons_iff.mp hrun
  have hopened : ∃ e ∈ (sundaySteps.foldl (gridStep summerTime) sundays).editions.rows,
      2 ≤ e.id ∧ e.endsAt = 1486800 := by
    decide +kernel
  obtain ⟨e, he, hid, hends⟩ := hopened
  have hnext : (gridStep summerTime sundays (.bootstrap 0 fun _ ↦ default)).editions.nextId = 2 := by
    decide +kernel
  have hend := (hplaced e he (hnext ▸ hid)).2.1
  rw [hends] at hend
  have hconfig : (gridStep summerTime sundays (.bootstrap 0 fun _ ↦ default)).config =
      sundays.config := by
    decide +kernel
  rw [OnAnchor, hconfig] at hend
  revert hend
  decide +kernel

/-- The first edition is opened before the clocks change. -/
theorem sundays_bootstrap_iff :
    Run (fun db l db' ↦ gridStep summerTime db l = db' ∧ Placed summerTime db l db') sundays
        [.bootstrap 0 fun _ ↦ default] (gridStep summerTime sundays (.bootstrap 0 fun _ ↦ default)) ↔
      Run (Guarded (KeepsOffset summerTime) fun db l db' ↦ gridStep summerTime db l = db') sundays
        [.bootstrap 0 fun _ ↦ default] (gridStep summerTime sundays (.bootstrap 0 fun _ ↦ default)) :=
  boundaries_onAnchor_iff summerTime sundays _ _ (civil_summerTime _) rfl (by decide) (by decide)
    (fun _ he ↦ absurd he List.not_mem_nil)

end Genjishimada.Tournaments
