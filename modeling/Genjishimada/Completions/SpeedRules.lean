import Genjishimada.Library.Run
import Genjishimada.Repository.Completions

/-!
# What the speed trigger guarantees

The trigger compares a new run with the fastest one of its user on the map, rejected and
legacy ones aside.  A run without a video has to beat it, and so beats them all.  A run with
a video has to beat it only if it has a video too; where it has none, the runs with a video
behind it are not looked at (`perKind_run_iff`).  Of several fastest runs the query may
return any.
-/

namespace Genjishimada.Completions

open Library Repository

/-! ## The trigger -/

/-- The runs the trigger looks at. -/
def rivals (new : CoreCompletion) (db : Db) : List CoreCompletion :=
  db.coreCompletions.select fun c ↦
    c.userId = new.userId ∧ c.mapId = new.mapId ∧ c.legacy = false ∧ c.rejected = false

/-- What `ORDER BY c.time LIMIT 1` can return. -/
def Fastest (new : CoreCompletion) (db : Db) : Option CoreCompletion → Prop
  | none => rivals new db = []
  | some best => best ∈ rivals new db ∧ ∀ c ∈ rivals new db, best.time ≤ c.time

/-- The trigger on an insert, with the row its first query has returned. -/
def speedCheck (new : CoreCompletion) (db : Db) : Option CoreCompletion → Option SpeedViolation
  | none => none
  | some best =>
      if new.legacy then none
      else if new.insertedAt < best.insertedAt then none
      else
        let isPending := db.coreCompletions.rows.any fun c ↦
          c.userId = new.userId ∧ c.mapId = new.mapId ∧ c.time = best.time ∧ c.pending
        if new.completion then
          if best.time ≤ new.time then
            some (if isPending then .pendingVerification best.time new.time
              else .completion best.time new.time)
          else none
        else if best.completion = false ∧ best.time ≤ new.time then
          some (if isPending then .pendingVerification best.time new.time
            else .video best.time new.time)
        else none

section Trigger

variable {new best c : CoreCompletion} {db db' : Db}

theorem speedRival_eq (new : CoreCompletion) (db : Db) :
    speedRival new false db = (orderBy CoreCompletion.time (rivals new db)).head? := by
  have hrows : rivals new db = db.coreCompletions.select fun c ↦
      c.userId = new.userId ∧ c.mapId = new.mapId ∧ c.legacy = false ∧ c.rejected = false ∧
        ((false : Bool) = false ∨ c.id ≠ new.id) := by
    rw [rivals]
    congr 1
    funext c
    simp only [true_or, and_true]
  rw [hrows]
  rfl

/-- The query as it is modelled for a submission returns one of the fastest. -/
theorem fastest_speedRival (new : CoreCompletion) (db : Db) :
    Fastest new db (speedRival new false db) := by
  rw [speedRival_eq]
  cases hsorted : orderBy CoreCompletion.time (rivals new db) with
  | nil =>
      have hperm := perm_orderBy CoreCompletion.time (rivals new db)
      rw [hsorted] at hperm
      exact hperm.symm.eq_nil
  | cons best rest =>
      have hbest : best ∈ orderBy CoreCompletion.time (rivals new db) := by
        rw [hsorted]
        exact List.mem_cons_self
      exact ⟨mem_orderBy.mp hbest, fun c hc ↦ orderBy_head_le hsorted hc⟩

/-- The trigger of a submission is this one. -/
theorem enforceSpeedRules_eq (new : CoreCompletion) (db : Db) :
    enforceSpeedRules new false db = speedCheck new db (speedRival new false db) := by
  rw [enforceSpeedRules]
  cases speedRival new false db with
  | none =>
      rw [speedCheck]
      split <;> rfl
  | some best => rw [speedCheck]

/-- What is let through against a run that came before. -/
theorem speedCheck_eq_none_iff (hlegacy : new.legacy = false) (horder : best.insertedAt ≤ new.insertedAt) :
    speedCheck new db (some best) = none ↔
      new.completion = false ∧ best.completion = true ∨ new.time < best.time := by
  rw [speedCheck, if_neg (by rw [hlegacy]; exact Bool.false_ne_true), if_neg (not_lt.mpr horder)]
  cases hkind : new.completion with
  | true =>
      rw [if_pos rfl]
      split
      · rename_i hslow
        exact iff_of_false (by simp) (by simp; omega)
      · rename_i hfast
        exact iff_of_true rfl (.inr (by omega))
  | false =>
      rw [if_neg Bool.false_ne_true]
      cases hbest : best.completion with
      | true =>
          rw [if_neg (fun h ↦ by cases h.1)]
          exact iff_of_true rfl (.inl ⟨rfl, rfl⟩)
      | false =>
          split
          · rename_i hslow
            exact iff_of_false (by simp) (by simp; omega)
          · rename_i hfast
            refine iff_of_true rfl (.inr ?_)
            rw [not_and, not_le] at hfast
            exact hfast rfl

end Trigger

/-! ## Histories -/

inductive SpeedLabel where
  | /-- An insert, and what the trigger's query returned for it. -/
    insert (new : Nat → CoreCompletion) (best : Option CoreCompletion)
  | reject (completionId rejectedBy : Nat)
  | /-- A verdict of a moderator. -/
    verdict (completionId : Nat) (verified : Bool) (verifiedBy : Nat) (reason : Option String)

/-- The user's runs on the map all came before. -/
def Latest (new : CoreCompletion) (db : Db) : Prop :=
  ∀ c ∈ db.coreCompletions.rows, c.userId = new.userId → c.mapId = new.mapId →
    c.insertedAt < new.insertedAt

/-- One statement.  An insert that the trigger does not let through changes nothing. -/
inductive SpeedStep (db : Db) : SpeedLabel → Db → Prop
  | accept {new : Nat → CoreCompletion} {best : Option CoreCompletion}
      (hkey : ∀ id, key (new id) = id) (hlatest : Latest (new db.coreCompletions.nextId) db)
      (hbest : Fastest (new db.coreCompletions.nextId) db best)
      (hcheck : speedCheck (new db.coreCompletions.nextId) db best = none) :
      SpeedStep db (.insert new best)
        { db with coreCompletions := db.coreCompletions.insert new hkey }
  | refuse {new : Nat → CoreCompletion} {best : Option CoreCompletion} {e : SpeedViolation}
      (hkey : ∀ id, key (new id) = id) (hlatest : Latest (new db.coreCompletions.nextId) db)
      (hbest : Fastest (new db.coreCompletions.nextId) db best)
      (hcheck : speedCheck (new db.coreCompletions.nextId) db best = some e) :
      SpeedStep db (.insert new best) db
  | reject (completionId rejectedBy : Nat) :
      SpeedStep db (.reject completionId rejectedBy) (rejectCompletion completionId rejectedBy db)
  | verdict (completionId : Nat) (verified : Bool) (verifiedBy : Nat) (reason : Option String) :
      SpeedStep db (.verdict completionId verified verifiedBy reason)
        (updateVerification completionId verified verifiedBy reason db)

/-! ## The law of each kind -/

/-- A run without a video beats every run, one with a video every run with one. -/
def BeatsKind (new : CoreCompletion) (db : Db) : Prop :=
  ∀ c ∈ rivals new db, (new.completion = false → c.completion = false) → new.time < c.time

/-- A run that the trigger lets through beats those of its kind. -/
def PerKind (db : Db) : SpeedLabel → Prop
  | .insert new best =>
      (new db.coreCompletions.nextId).legacy = false →
        speedCheck (new db.coreCompletions.nextId) db best = none →
          BeatsKind (new db.coreCompletions.nextId) db
  | _ => True

/-- Where a run with a video comes behind one without, those with a video are slower still. -/
def Compared (db : Db) : SpeedLabel → Prop
  | .insert new (some best) =>
      (new db.coreCompletions.nextId).legacy = false →
        (new db.coreCompletions.nextId).completion = false → best.completion = true →
          ∀ c ∈ rivals (new db.coreCompletions.nextId) db, c.completion = false →
            (new db.coreCompletions.nextId).time < c.time
  | _ => True

section Law

variable {new best : CoreCompletion} {db db' : Db} {l : SpeedLabel}

/-- A run that beats the fastest beats them all. -/
theorem beatsKind_of_lt (hbest : Fastest new db (some best)) (hlt : new.time < best.time) :
    BeatsKind new db := by
  intro c hc _
  exact lt_of_lt_of_le hlt (hbest.2 c hc)

/-- A run without a video that is let through beats every run. -/
theorem beatsKind_of_completion (hlegacy : new.legacy = false) (hkind : new.completion = true)
    (hlatest : Latest new db) (hbest : Fastest new db (some best))
    (hcheck : speedCheck new db (some best) = none) : BeatsKind new db := by
  have hmem := Table.mem_select.mp hbest.1
  rw [decide_eq_true_eq] at hmem
  have horder := (hlatest best hmem.1 hmem.2.1 hmem.2.2.1).le
  rcases (speedCheck_eq_none_iff hlegacy horder).mp hcheck with ⟨hvideo, _⟩ | hlt
  · rw [hkind] at hvideo
    cases hvideo
  · exact beatsKind_of_lt hbest hlt

theorem perKind_iff (hs : SpeedStep db l db') : PerKind db l ↔ Compared db l := by
  have hinsert : ∀ (new : Nat → CoreCompletion) (best : Option CoreCompletion),
      Latest (new db.coreCompletions.nextId) db →
      Fastest (new db.coreCompletions.nextId) db best →
        (PerKind db (.insert new best) ↔ Compared db (.insert new best)) := by
    intro new best hlatest hbest
    cases best with
    | none =>
        -- there is nothing to beat
        refine iff_of_true (fun _ _ c hc ↦ ?_) trivial
        rw [show rivals (new db.coreCompletions.nextId) db = [] from hbest] at hc
        cases hc
    | some best =>
        have hmem := Table.mem_select.mp hbest.1
        rw [decide_eq_true_eq] at hmem
        have horder := (hlatest best hmem.1 hmem.2.1 hmem.2.2.1).le
        constructor
        · intro hlaw hlegacy hvideo hbehind c hc hkind
          have hcheck : speedCheck (new db.coreCompletions.nextId) db (some best) = none :=
            (speedCheck_eq_none_iff hlegacy horder).mpr (.inl ⟨hvideo, hbehind⟩)
          exact hlaw hlegacy hcheck c hc fun _ ↦ hkind
        · intro hcompared hlegacy hcheck
          rcases (speedCheck_eq_none_iff hlegacy horder).mp hcheck with ⟨hvideo, hbehind⟩ | hlt
          · exact fun c hc hkind ↦ hcompared hlegacy hvideo hbehind c hc (hkind hvideo)
          · exact beatsKind_of_lt hbest hlt
  cases hs with
  | accept hkey hlatest hbest hcheck => exact hinsert _ _ hlatest hbest
  | refuse hkey hlatest hbest hcheck => exact hinsert _ _ hlatest hbest
  | reject completionId rejectedBy => exact Iff.rfl
  | verdict completionId verified verifiedBy reason => exact Iff.rfl

end Law

/-- In every history, the runs let through beat those of their kind exactly when no run with a
video slips in behind a faster one without. -/
theorem perKind_run_iff (db db' : Db) (ls : List SpeedLabel) :
    Run (fun db l db' ↦ SpeedStep db l db' ∧ PerKind db l) db ls db' ↔
      Run (Guarded Compared SpeedStep) db ls db' := by
  apply Run.congr (fun _ ↦ True)
  · intro db l db' _
    rw [Guarded, and_comm]
    apply and_congr_left
    exact perKind_iff
  · exact fun _ _ _ _ _ ↦ trivial
  · trivial

/-- A run of user 1 on map 1. -/
def runOfOne (time insertedAt : Int) (completion : Bool) (id : Nat) : CoreCompletion where
  id := id
  mapId := 1
  userId := 1
  time := time
  screenshot := "s"
  video := if completion then none else some "v"
  completion := completion
  insertedAt := insertedAt

theorem key_runOfOne (time insertedAt : Int) (completion : Bool) (id : Nat) :
    key (runOfOne time insertedAt completion id) = id := rfl

/-- A run in 100 with a video, and one in 90 without. -/
def screenshotFirst : Db :=
  { ({} : Db) with
    coreCompletions := (Table.empty.insert (runOfOne 100 1 false) (key_runOfOne _ _ _)).insert
      (runOfOne 90 2 true) (key_runOfOne _ _ _) }

/-- Behind them, a run in 120 with a video. -/
def slowVideo : SpeedLabel := .insert (runOfOne 120 3 false) (some (runOfOne 90 2 true 2))

/-- It is let through, and beats none of its kind. -/
theorem slowVideo_not_perKind :
    Run SpeedStep {} [.insert (runOfOne 100 1 false) none,
        .insert (runOfOne 90 2 true) (some (runOfOne 100 1 false 1))] screenshotFirst ∧
      (∃ db', SpeedStep screenshotFirst slowVideo db') ∧ ¬ PerKind screenshotFirst slowVideo := by
  have hfirst : SpeedStep {} (.insert (runOfOne 100 1 false) none) { ({} : Db) with
      coreCompletions := Table.empty.insert (runOfOne 100 1 false) (key_runOfOne _ _ _) } :=
    .accept (key_runOfOne _ _ _) (by unfold Latest; decide) rfl rfl
  refine ⟨.cons hfirst (.single ?_), ?_, fun hlaw ↦ ?_⟩
  · exact .accept (key_runOfOne _ _ _) (by unfold Latest; decide) ⟨by decide, by decide⟩ (by decide)
  · exact ⟨_, .accept (key_runOfOne _ _ _) (by unfold Latest; decide) ⟨by decide, by decide⟩
      (by decide)⟩
  · have hbeats := hlaw rfl (by decide) (runOfOne 100 1 false 1) (by decide) fun _ ↦ rfl
    revert hbeats
    decide

end Genjishimada.Completions
