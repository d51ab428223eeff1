import Genjishimada.Library.Run
import Genjishimada.Services.QuestConfig

/-!
# The schedule of the quests

`update_quest_config` puts the next rotation on the first slot of the new day and hour, and a check
that installs a rotation gives it the week that starts where the schedule says, whatever the time.
-/

namespace Genjishimada.Store

open Library Migrations Services

/-! ## The next rotation -/

section Schedule

variable {request : UpdateQuestConfigRequest} {config : QuestConfig}

theorem orElse_eq_getD {a : Option Nat} {b : Nat} (h : a ≠ some 0) : orElse a b = a.getD b := by
  match a with
  | none => rfl
  | some 0 => exact absurd rfl h
  | some (n + 1) => rfl

theorem orElse_self (a b : Nat) (h : a = 0 → b = 0) : orElse (some a) b = a := by
  match a with
  | 0 => exact h rfl
  | n + 1 => rfl

/-- An hour of zero counts as none. -/
theorem newNextRotationAt_eq (now : Int) (config : QuestConfig)
    (hday : ∀ d ∈ request.rotationDay, 1 ≤ d ∧ d ≤ 7)
    (hchange : request.rotationDay.isSome ∨ request.rotationHour.isSome) :
    newNextRotationAt now request config =
      some (nextSlot (request.rotationDay.getD config.rotationDay)
        (orElse request.rotationHour config.rotationHour) now) := by
  have hconfigDay : orElse (some config.rotationDay) 1 = config.rotationDay := by
    refine orElse_self _ _ fun h ↦ ?_
    have hcheck := config.rotationDay_check.1
    omega
  have hconfigHour : orElse (some config.rotationHour) 0 = config.rotationHour :=
    orElse_self _ _ fun _ ↦ rfl
  have hnewDay : orElse request.rotationDay config.rotationDay =
      request.rotationDay.getD config.rotationDay := by
    refine orElse_eq_getD fun h ↦ ?_
    have hpos := (hday 0 h).1
    omega
  rw [newNextRotationAt, if_pos hchange, hconfigDay, hconfigHour, hnewDay]
  rfl

/-- A change of day or hour stores the first instant after now that falls on the stored day and
hour exactly if it does not set the hour to zero from another one. -/
theorem updateQuestConfig_isLeast_iff (now : Int) (config : QuestConfig)
    (hday : ∀ d ∈ request.rotationDay, 1 ≤ d ∧ d ≤ 7) (hhour : ∀ h ∈ request.rotationHour, h ≤ 23)
    (hchange : request.rotationDay.isSome ∨ request.rotationHour.isSome) :
    (∃ response config', updateQuestConfig now request config = some (response, config') ∧
        IsLeast {t | now < t ∧ OnSlot config'.rotationDay config'.rotationHour t}
          config'.nextRotationAt) ↔
      ¬ (request.rotationHour = some 0 ∧ config.rotationHour ≠ 0) := by
  have hday' : 1 ≤ request.rotationDay.getD config.rotationDay ∧
      request.rotationDay.getD config.rotationDay ≤ 7 := by
    cases hd : request.rotationDay with
    | none => exact config.rotationDay_check
    | some d => exact hday d hd
  have hhour' : request.rotationHour.getD config.rotationHour ≤ 23 := by
    cases hh : request.rotationHour with
    | none => exact config.rotationHour_check
    | some h => exact hhour h hh
  have hnewHour : orElse request.rotationHour config.rotationHour ≤ 23 := by
    by_cases hzero : request.rotationHour = some 0
    · rw [hzero]
      exact config.rotationHour_check
    · rwa [orElse_eq_getD hzero]
  have hleast := isLeast_nextSlot hday' hnewHour now
  rw [updateQuestConfig, dif_pos ⟨hday', hhour'⟩, newNextRotationAt_eq now config hday hchange]
  simp only [Option.getD_some, Option.some.injEq, Prod.mk.injEq]
  constructor
  · rintro ⟨_, _, ⟨-, rfl⟩, hnext⟩ ⟨hzero, hne⟩
    have hsame : orElse request.rotationHour config.rotationHour =
        request.rotationHour.getD config.rotationHour := hleast.1.2.hour_eq hnext.1.2
    rw [hzero] at hsame
    exact hne hsame
  · intro hok
    refine ⟨_, _, ⟨rfl, rfl⟩, ?_⟩
    have hsame : orElse request.rotationHour config.rotationHour =
        request.rotationHour.getD config.rotationHour := by
      by_cases hzero : request.rotationHour = some 0
      · have hstored : config.rotationHour = 0 := not_not.mp fun hne ↦ hok ⟨hzero, hne⟩
        rw [hzero]
        exact hstored
      · exact orElse_eq_getD hzero
    show IsLeast {t | now < t ∧ OnSlot (request.rotationDay.getD config.rotationDay)
      (request.rotationHour.getD config.rotationHour) t} (nextSlot _ _ now)
    rw [← hsame]
    exact hleast

/-- Mondays at noon; the clock reads Monday, 8:00. -/
def mondayNoon : QuestConfig where
  rotationHour := 12
  lastRotationAt := 0
  nextRotationAt := 993600000000

/-- Moving the rotation to midnight stores midnight and schedules noon. -/
theorem midnight_schedules_noon :
    (updateQuestConfig 979200000000 { rotationHour := some 0 } mondayNoon).map (fun r ↦
        (r.2.rotationDay, r.2.rotationHour, decide (OnSlot 1 0 r.2.nextRotationAt),
          decide (OnSlot 1 12 r.2.nextRotationAt))) = some (1, 0, false, true) := by
  decide +kernel

/-- A move to Wednesday. -/
theorem wednesday_isLeast_iff :
    (∃ response config',
        updateQuestConfig 979200000000 { rotationDay := some 3 } mondayNoon = some (response, config') ∧
        IsLeast {t | 979200000000 < t ∧ OnSlot config'.rotationDay config'.rotationHour t}
          config'.nextRotationAt) ↔
      ¬ ((none : Option Nat) = some 0 ∧ mondayNoon.rotationHour ≠ 0) :=
  updateQuestConfig_isLeast_iff 979200000000 mondayNoon (by rintro d ⟨⟩; decide) (by rintro h ⟨⟩)
    (Or.inl rfl)

end Schedule

/-! ## What a rotation puts into the tables -/

section Rows

variable {rotationId : Nat} {availableFrom availableUntil : Int} {t t' t'' : Table QuestRotation}

/-- What `t'` has on top of `t`: rows of one rotation in one window, and some of them if `drawn`. -/
structure Generated (rotationId : Nat) (availableFrom availableUntil : Int) (drawn : Prop)
    (t t' : Table QuestRotation) : Prop where
  keeps : ∀ r ∈ t.rows, r ∈ t'.rows
  adds : ∀ r ∈ t'.rows, r ∈ t.rows ∨
    r.rotationId = rotationId ∧ r.availableFrom = availableFrom ∧ r.availableUntil = availableUntil
  exists_iff : (∃ r ∈ t'.rows, r.rotationId = rotationId) ↔
    (∃ r ∈ t.rows, r.rotationId = rotationId) ∨ drawn

variable {drawn drawn' : Prop}

theorem Generated.refl (t : Table QuestRotation) :
    Generated rotationId availableFrom availableUntil False t t where
  keeps _ hr := hr
  adds _ hr := .inl hr
  exists_iff := (or_false _).symm.to_iff

theorem Generated.trans (h : Generated rotationId availableFrom availableUntil drawn t t')
    (h' : Generated rotationId availableFrom availableUntil drawn' t' t'') :
    Generated rotationId availableFrom availableUntil (drawn ∨ drawn') t t'' where
  keeps r hr := h'.keeps r (h.keeps r hr)
  adds r hr := (h'.adds r hr).elim (h.adds r) .inr
  exists_iff := by rw [h'.exists_iff, h.exists_iff, or_assoc]

theorem Generated.congr (h : Generated rotationId availableFrom availableUntil drawn t t')
    (hdrawn : drawn ↔ drawn') : Generated rotationId availableFrom availableUntil drawn' t t' where
  keeps := h.keeps
  adds := h.adds
  exists_iff := by rw [h.exists_iff, hdrawn]

/-- The rotation has the quest afterwards, in its window or from before. -/
theorem generated_insertGlobal (t : Table QuestRotation) (q : Quest) :
    Generated rotationId availableFrom availableUntil True t
      (insertGlobal rotationId availableFrom availableUntil t q) := by
  rw [insertGlobal]
  split
  · rename_i hconflict
    obtain ⟨r, hr, hconflict⟩ := List.any_eq_true.mp hconflict
    refine ⟨fun _ hr ↦ hr, fun _ hr ↦ .inl hr, ?_⟩
    exact iff_of_true ⟨r, hr, (of_decide_eq_true hconflict).1⟩ (.inr trivial)
  · refine ⟨fun r hr ↦ Table.mem_insert.mpr (.inl hr), fun r hr ↦ ?_, ?_⟩
    · rcases Table.mem_insert.mp hr with hr | rfl
      · exact .inl hr
      · exact .inr ⟨rfl, rfl, rfl⟩
    · exact iff_of_true ⟨_, Table.mem_insert.mpr (.inr rfl), rfl⟩ (.inr trivial)

theorem generated_foldl (quests : List Quest) (t : Table QuestRotation) :
    Generated rotationId availableFrom availableUntil (quests ≠ []) t
      (quests.foldl (insertGlobal rotationId availableFrom availableUntil) t) := by
  induction quests generalizing t with
  | nil => exact (Generated.refl t).congr (by simp)
  | cons q quests ih => exact ((generated_insertGlobal t q).trans (ih _)).congr (by simp)

variable {random : QuestDifficulty → Shuffle Quest} {difficulty : QuestDifficulty} {db db' : QuestDb}

/-- A difficulty is drawn from if its count is positive and its pool is not empty. -/
def Draws (difficulty : QuestDifficulty) (count : Int) (db : QuestDb) : Prop :=
  0 < count ∧ globalPool difficulty db ≠ []

/-- A statement of `select_global_quests` writes rows of the rotation, and nothing else. -/
theorem selectGlobal_spec {count : Int}
    (h : selectGlobal rotationId availableFrom availableUntil random difficulty count db = some db') :
    ∃ t, db' = { db with questRotation := t } ∧
      Generated rotationId availableFrom availableUntil (Draws difficulty count db)
        db.questRotation t := by
  rw [selectGlobal] at h
  split at h
  · cases h
  · rename_i hcount
    obtain rfl := Option.some.inj h
    refine ⟨_, rfl, (generated_foldl _ _).congr ?_⟩
    have hlength := ((random difficulty).perm (globalPool difficulty db)).length_eq
    rw [Draws, ← List.length_pos_iff, ← List.length_pos_iff, List.length_take, hlength]
    omega

/-- The rotation has quests if one of the three difficulties is drawn from. -/
def DrawsAny (cfg : QuestConfig) (db : QuestDb) : Prop :=
  Draws .easy cfg.easyQuestCount db ∨ Draws .medium cfg.mediumQuestCount db ∨
    Draws .hard cfg.hardQuestCount db

/-- A generated rotation deletes what had ended by its start and adds its rows. -/
theorem generateQuestRotation_spec {cfg : QuestConfig}
    (h : generateQuestRotation rotationId availableFrom availableUntil cfg.easyQuestCount
      cfg.mediumQuestCount cfg.hardQuestCount random db = some db') :
    Generated rotationId availableFrom availableUntil (DrawsAny cfg db)
      (db.questRotation.delete fun r ↦ r.availableUntil ≤ availableFrom) db'.questRotation := by
  rw [generateQuestRotation] at h
  obtain ⟨db₁, hselect, hnotify⟩ := Option.bind_eq_some_iff.mp h
  obtain rfl := Option.some.inj hnotify
  rw [selectGlobalQuests] at hselect
  obtain ⟨db₂, heasy, hselect⟩ := Option.bind_eq_some_iff.mp hselect
  obtain ⟨db₃, hmedium, hhard⟩ := Option.bind_eq_some_iff.mp hselect
  obtain ⟨t₂, rfl, hgen⟩ := selectGlobal_spec heasy
  obtain ⟨t₃, rfl, hgen'⟩ := selectGlobal_spec hmedium
  obtain ⟨t₁, rfl, hgen''⟩ := selectGlobal_spec hhard
  exact hgen.trans (hgen'.trans hgen'')

end Rows

/-! ## The window of the current rotation -/

section Window

variable {db db' db₀ : QuestDb} {response : RotationCheck} {random : QuestDifficulty → Shuffle Quest}
  {now : Int} {rotationId : Nat}

/-- The rows of the current rotation have the week that starts at `last_rotation_at`. -/
def Windowed (db : QuestDb) : Prop :=
  ∀ r ∈ db.questRotation.rows, db.config.currentRotationId = some r.rotationId →
    r.availableFrom = db.config.lastRotationAt ∧
      r.availableUntil = db.config.lastRotationAt + microsPerWeek

/-- No row has the id. -/
def FreshId (rotationId : Nat) (db : QuestDb) : Prop :=
  ∀ r ∈ db.questRotation.rows, r.rotationId ≠ rotationId

/-- A check of a rotation that is not due changes nothing. -/
theorem check_of_not_due (hdue : ¬ db.config.due now)
    (h : checkAndGenerateQuestRotation now rotationId random db = some (response, db')) : db' = db := by
  rw [checkAndGenerateQuestRotation, if_neg hdue] at h
  exact (Prod.mk.inj (Option.some.inj h)).2.symm

/-- A check of a rotation that is due installs the rotation, for the week from when it was due. -/
theorem check_of_due (hdue : db.config.due now)
    (h : checkAndGenerateQuestRotation now rotationId random db = some (response, db')) :
    db'.config.currentRotationId = some rotationId ∧
      db'.config.lastRotationAt = db.config.nextRotationAt ∧
      db'.config.nextRotationAt = db.config.nextRotationAt + microsPerWeek ∧
      Generated rotationId db.config.nextRotationAt (db.config.nextRotationAt + microsPerWeek)
        (DrawsAny db.config db)
        (db.questRotation.delete fun r ↦ r.availableUntil ≤ db.config.nextRotationAt)
        db'.questRotation := by
  rw [checkAndGenerateQuestRotation, if_pos hdue] at h
  obtain ⟨db₁, hgenerate, h⟩ := Option.bind_eq_some_iff.mp h
  obtain ⟨-, rfl⟩ := Prod.mk.inj (Option.some.inj h)
  have hgen := generateQuestRotation_spec hgenerate
  exact ⟨rfl, rfl, rfl, hgen⟩

/-- With a fresh id the rows of the rotation are those of its window. -/
theorem rows_of_due (hdue : db.config.due now) (hfresh : FreshId rotationId db)
    (h : checkAndGenerateQuestRotation now rotationId random db = some (response, db')) :
    (∀ r ∈ db'.questRotation.rows, r.rotationId = rotationId →
        r.availableFrom = db.config.nextRotationAt ∧
          r.availableUntil = db.config.nextRotationAt + microsPerWeek) ∧
      ((∃ r ∈ db'.questRotation.rows, r.rotationId = rotationId) ↔ DrawsAny db.config db) := by
  obtain ⟨-, -, -, hgen⟩ := check_of_due hdue h
  have hold : ∀ r ∈ (db.questRotation.delete fun r ↦
      r.availableUntil ≤ db.config.nextRotationAt).rows, r.rotationId ≠ rotationId :=
    fun r hr ↦ hfresh r (Table.mem_delete.mp hr).1
  constructor
  · intro r hr hid
    exact ((hgen.adds r hr).resolve_left fun hr ↦ hold r hr hid).2
  · rw [hgen.exists_iff, or_iff_right]
    rintro ⟨r, hr, hid⟩
    exact hold r hr hid

theorem windowed_check (hwindow : Windowed db) (hfresh : FreshId rotationId db)
    (h : checkAndGenerateQuestRotation now rotationId random db = some (response, db')) :
    Windowed db' := by
  by_cases hdue : db.config.due now
  · obtain ⟨hcurrent, hlast, -⟩ := check_of_due hdue h
    intro r hr hid
    rw [hcurrent, Option.some.injEq] at hid
    rw [hlast]
    exact (rows_of_due hdue hfresh h).1 r hr hid.symm
  · rwa [check_of_not_due hdue h]

/-! ### Runs -/

/-- What writes the configuration or the rotations, and what else may change. -/
inductive RotationStep where
  | check (now : Int) (rotationId : Nat) (random : QuestDifficulty → Shuffle Quest)
  | updateConfig (now : Int) (request : UpdateQuestConfigRequest)
  | insertBounty (rotationId userId : Nat) (questData : QuestData)
  /-- `ON DELETE CASCADE` of a quest or a user. -/
  | deleteRows (gone : QuestRotation → Bool)
  | other (quests : Table Quest) (rewards : RewardDb) (users : List Nat) (notified : List (Nat × Nat))

def RotationStep.apply (db : QuestDb) : RotationStep → Option QuestDb
  | .check now rotationId random => (checkAndGenerateQuestRotation now rotationId random db).map Prod.snd
  | .updateConfig now request =>
      (updateQuestConfig now request db.config).map fun r ↦ { db with config := r.2 }
  | .insertBounty rotationId userId questData =>
      (insertBountyRow rotationId userId questData db.questRotation).map fun t ↦
        { db with questRotation := t }
  | .deleteRows gone => some { db with questRotation := db.questRotation.delete gone }
  | .other quests rewards users notified => some { db with quests, rewards, users, notified }

/-- `gen_random_uuid` makes an id that no row has. -/
def RotationStep.Fresh (db : QuestDb) : RotationStep → Prop
  | .check _ rotationId _ => FreshId rotationId db
  | _ => True

/-- A bounty has the window of its rotation. -/
theorem mem_insertBountyRow {userId : Nat} {questData : QuestData} {t t' : Table QuestRotation}
    (h : insertBountyRow rotationId userId questData t = some t') {r : QuestRotation}
    (hr : r ∈ t'.rows) :
    ∃ r' ∈ t.rows, r'.rotationId = r.rotationId ∧ r'.availableFrom = r.availableFrom ∧
      r'.availableUntil = r.availableUntil := by
  rw [insertBountyRow, Option.map_eq_some_iff] at h
  obtain ⟨w, hw, rfl⟩ := h
  have hmem := mem_orderBy.mp (List.mem_of_mem_head? hw)
  rw [Table.mem_select, decide_eq_true_iff] at hmem
  split at hr
  · exact ⟨r, hr, rfl, rfl, rfl⟩
  · rcases Table.mem_insert.mp hr with hr | rfl
    · exact ⟨r, hr, rfl, rfl, rfl⟩
    · exact ⟨w, hmem.1, hmem.2.1, rfl, rfl⟩

/-- An update of the configuration leaves the current rotation alone. -/
theorem updateQuestConfig_keeps {request : UpdateQuestConfigRequest} {config config' : QuestConfig}
    {response : UpdateQuestConfigResponse}
    (h : updateQuestConfig now request config = some (response, config')) :
    config'.currentRotationId = config.currentRotationId ∧
      config'.lastRotationAt = config.lastRotationAt := by
  rw [updateQuestConfig] at h
  split at h
  · obtain ⟨-, rfl⟩ := Prod.mk.inj (Option.some.inj h)
    exact ⟨rfl, rfl⟩
  · cases h

theorem windowed_step {step : RotationStep} (hwindow : Windowed db)
    (hstep : Guarded (fun db step ↦ step.Fresh db) (ofStep RotationStep.apply) db step db') :
    Windowed db' := by
  obtain ⟨hfresh, happly⟩ := hstep
  cases step with
  | check now rotationId random =>
      obtain ⟨⟨response, db₁⟩, hcheck, rfl⟩ := Option.map_eq_some_iff.mp happly
      exact windowed_check hwindow hfresh hcheck
  | updateConfig now request =>
      obtain ⟨⟨response, config⟩, hupdate, rfl⟩ := Option.map_eq_some_iff.mp happly
      obtain ⟨hcurrent, hlast⟩ := updateQuestConfig_keeps hupdate
      intro r hr hid
      dsimp only at hid ⊢
      rw [hlast]
      exact hwindow r hr (hcurrent.symm.trans hid)
  | insertBounty rotationId userId questData =>
      obtain ⟨t, hinsert, rfl⟩ := Option.map_eq_some_iff.mp happly
      intro r hr hid
      obtain ⟨r', hr', hid', hfrom, huntil⟩ := mem_insertBountyRow hinsert hr
      rw [← hfrom, ← huntil]
      exact hwindow r' hr' (hid' ▸ hid)
  | deleteRows gone =>
      obtain rfl := Option.some.inj happly
      exact fun r hr ↦ hwindow r (Table.mem_delete.mp hr).1
  | other quests rewards users notified =>
      obtain rfl := Option.some.inj happly
      exact hwindow

/-- The states reached from one without a rotation, as the migration leaves it. -/
def Scheduled (db : QuestDb) : Prop :=
  ∃ db₀ steps, db₀.config.currentRotationId = none ∧
    Run (Guarded (fun db step ↦ RotationStep.Fresh db step) (ofStep RotationStep.apply)) db₀ steps db

theorem Scheduled.windowed (h : Scheduled db) : Windowed db := by
  obtain ⟨db₀, steps, hnone, hrun⟩ := h
  refine hrun.invariant (fun _ _ _ ↦ windowed_step) fun r _ hid ↦ ?_
  rw [hnone] at hid
  cases hid

/-! ### Now -/

/-- The rows of the current rotation are available at `now`, and the next rotation is still to come. -/
def CurrentAt (now : Int) (db : QuestDb) : Prop :=
  (∀ r ∈ db.questRotation.rows, db.config.currentRotationId = some r.rotationId →
      r.availableFrom ≤ now ∧ now < r.availableUntil) ∧
    now < db.config.nextRotationAt

instance (now : Int) (db : QuestDb) : Decidable (CurrentAt now db) := inferInstanceAs (Decidable (_ ∧ _))

/-- The current rotation has no rows. -/
def NoRows (db : QuestDb) : Prop :=
  ∀ r ∈ db.questRotation.rows, db.config.currentRotationId ≠ some r.rotationId

/-- After a check the current rotation is available and the next one is to come exactly if: where a
rotation was due, it was due at most a week ago and not in the future, unless it has no quests;
where none was, the current one started at most a week ago, unless it has no rows. -/
theorem check_current_iff (hdb : Scheduled db) (hfresh : FreshId rotationId db)
    (h : checkAndGenerateQuestRotation now rotationId random db = some (response, db')) :
    CurrentAt now db' ↔
      if db.config.due now then
        now < db.config.nextRotationAt + microsPerWeek ∧
          (db.config.nextRotationAt ≤ now ∨ ¬ DrawsAny db.config db)
      else
        db.config.lastRotationAt ≤ now ∧ now < db.config.lastRotationAt + microsPerWeek ∨
          NoRows db := by
  by_cases hdue : db.config.due now
  · obtain ⟨hcurrent, -, hnext, -⟩ := check_of_due hdue h
    obtain ⟨hrows, hdraws⟩ := rows_of_due hdue hfresh h
    rw [if_pos hdue, CurrentAt, hnext, hcurrent, ← hdraws, and_comm]
    refine and_congr_right fun hlt ↦ ?_
    constructor
    · intro hcurrent
      by_cases hnone : ∃ r ∈ db'.questRotation.rows, r.rotationId = rotationId
      · obtain ⟨r, hr, hid⟩ := hnone
        have hfrom := (hcurrent r hr (congrArg some hid.symm)).1
        rw [(hrows r hr hid).1] at hfrom
        exact .inl hfrom
      · exact .inr hnone
    · rintro hstarted r hr hid
      have hid := (Option.some.inj hid).symm
      obtain ⟨hfrom, huntil⟩ := hrows r hr hid
      rw [hfrom, huntil]
      exact ⟨hstarted.resolve_right (not_not.mpr ⟨r, hr, hid⟩), hlt⟩
  · have hwindow := hdb.windowed
    have hnext : now < db.config.nextRotationAt := not_le.mp fun hle ↦ hdue (.inr hle)
    rw [if_neg hdue, check_of_not_due hdue h, CurrentAt, and_iff_left hnext]
    constructor
    · intro hcurrent
      by_cases hnone : NoRows db
      · exact .inr hnone
      · rw [NoRows, not_forall₂] at hnone
        obtain ⟨r, hr, hid⟩ := hnone
        have hid := not_not.mp hid
        obtain ⟨hfrom, huntil⟩ := hwindow r hr hid
        have havailable := hcurrent r hr hid
        rw [hfrom, huntil] at havailable
        exact .inl havailable
    · rintro hstarted r hr hid
      obtain ⟨hfrom, huntil⟩ := hwindow r hr hid
      rw [hfrom, huntil]
      exact hstarted.resolve_right fun hnone ↦ hnone r hr hid

/-- The quests as the migration installs them on a Thursday, with one template. -/
def firstWeek : QuestDb where
  config := { lastRotationAt := 0, nextRotationAt := 345600000000 }
  quests := Table.empty.insert fun id ↦
    { id, name := "Warm-Up Round", difficulty := .easy, coinReward := 100, xpReward := 15
      requirements := { type := .completeMaps, count := 6 } }

/-- The first rotation is the current one four days before it is available, and a rotation that was
due three weeks ago has ended when it is generated, with the next one overdue. -/
theorem firstWeek_not_current :
    ((checkAndGenerateQuestRotation 3600000000 1 default firstWeek).map fun r ↦
        (r.1.generated, decide (CurrentAt 3600000000 r.2),
          decide (3600000000 < r.2.config.nextRotationAt))) = some (true, false, true) ∧
    ((checkAndGenerateQuestRotation 2160000000000 1 default firstWeek).map fun r ↦
        (r.1.generated, decide (CurrentAt 2160000000000 r.2),
          decide (2160000000000 < r.2.config.nextRotationAt))) = some (true, false, false) := by
  decide +kernel

/-- The first rotation when it is due. -/
theorem firstWeek_current_iff :
    ∃ db', CurrentAt 349200000000 db' ↔
      if firstWeek.config.due 349200000000 then
        349200000000 < firstWeek.config.nextRotationAt + microsPerWeek ∧
          (firstWeek.config.nextRotationAt ≤ 349200000000 ∨ ¬ DrawsAny firstWeek.config firstWeek)
      else
        firstWeek.config.lastRotationAt ≤ 349200000000 ∧
          349200000000 < firstWeek.config.lastRotationAt + microsPerWeek ∨ NoRows firstWeek := by
  have hfresh : FreshId 1 firstWeek := by
    rintro r ⟨⟩
  obtain ⟨db', response, hcheck⟩ : ∃ db' response,
      checkAndGenerateQuestRotation 349200000000 1 default firstWeek = some (response, db') :=
    ⟨_, _, rfl⟩
  exact ⟨db', check_current_iff ⟨firstWeek, [], rfl, .nil _⟩ hfresh hcheck⟩

end Window

end Genjishimada.Store
