import Genjishimada.Completions.Records
import Genjishimada.Library.Run
import Genjishimada.Library.Tally
import Genjishimada.Services.Completions
import Genjishimada.Store.Quests

/-!
# Quests that count maps

Three types of quest count maps: the maps completed, of any or of one difficulty, and the
maps a medal was earned on.  Verifying a run counts its map and un-verifying it takes the
map back, unless another verified run of the user still counts.  The quests on medals never
take a map back: the event of a revert has no medal, and so it does not match them.
-/

namespace Genjishimada.Completions

open Library Sdk Repository Services Store

/-! ## What a quest may count -/

/-- The run entitles a quest of the user to count the map: a verified run of the user on it,
and for medals one that earns a medal the quest asks for. -/
structure Qualifies (thresholds : Option MedalThresholds) (userId : Nat)
    (requirements : QuestRequirements) (mapId : Nat) (c : CoreCompletion) : Prop where
  user : c.userId = userId
  map : c.mapId = mapId
  verified : c.verified = true
  medal : requirements.type = .earnMedals →
    (computeMedal c.time thresholds).any (medalCounts requirements) = true

def HasRun (db : Db) (userId : Nat) (requirements : QuestRequirements) (mapId : Nat) : Prop :=
  ∃ c ∈ db.coreCompletions.rows,
    Qualifies (getMedalThresholds mapId db) userId requirements mapId c

/-- A verdict, on either path. -/
inductive VerdictLabel where
  | verify (recordId : Nat) (data : CompletionVerificationUpdateRequest) (headers : Headers)
      (now : Int) (bounty : Bounty) (faults : List PublishFaults)
  | moderate (completionId moderatedBy : Nat) (verified : Bool) (now : Int) (bounty : Bounty)
      (faults : List PublishFaults)

namespace VerdictLabel

def recordId : VerdictLabel → Nat
  | verify recordId .. => recordId
  | moderate completionId .. => completionId

def verified : VerdictLabel → Bool
  | verify _ data .. => data.verified
  | moderate _ _ verified .. => verified

end VerdictLabel

/-- A verdict inside a rotation. -/
def verdictStep (db : Db) : VerdictLabel → Db
  | .verify recordId data headers now bounty faults =>
      (final (verifyCompletion recordId data headers now { bounty } { db, faults })).db
  | .moderate completionId moderatedBy verified now bounty faults =>
      (final (moderateCompletion completionId { moderatedBy, verified := some verified } now
        { bounty } { db, faults })).db

section Quest

variable {db db' : Db} {q : UserQuestProgress} {m : CoreMap} {now time : Int}

end Quest

/-! ## The run -/

/-- One run is decided, and all else that the quests see is as it was. -/
structure Decided (recordId : Nat) (verified : Bool) (db db' : Db) : Prop where
  only : ∃ coreCompletions, db' = { db with coreCompletions := coreCompletions }
  others : ∀ c ∈ db.coreCompletions.rows, c.id ≠ recordId → c ∈ db'.coreCompletions.rows
  decided : ∀ c ∈ db.coreCompletions.rows, c.id = recordId → ∃ c' ∈ db'.coreCompletions.rows,
    c'.userId = c.userId ∧ c'.mapId = c.mapId ∧ c'.time = c.time ∧ c'.verified = verified
  rows : ∀ c' ∈ db'.coreCompletions.rows,
    (c'.id ≠ recordId ∧ c' ∈ db.coreCompletions.rows) ∨ c'.verified = verified

section Decided

variable {recordId mapId userId : Nat} {verified : Bool} {db db' : Db} {r : QuestRequirements}

/-- A verified run that is not un-verified goes on entitling the quests to its map. -/
theorem HasRun.decided (h : Decided recordId verified db db')
    (hstays : ∀ c ∈ db.coreCompletions.rows, c.id = recordId → c.verified = true → verified = true)
    (hrun : HasRun db userId r mapId) : HasRun db' userId r mapId := by
  obtain ⟨c, hc, hqualifies⟩ := hrun
  obtain ⟨_, hdb⟩ := h.only
  have hmedals : db'.medals = db.medals := by rw [hdb]
  by_cases hid : c.id = recordId
  · obtain ⟨c', hc', huser, hmap, htime, hverified⟩ := h.decided c hc hid
    refine ⟨c', hc', huser.trans hqualifies.user, hmap.trans hqualifies.map,
      hverified.trans (hstays c hc hid hqualifies.verified), ?_⟩
    rw [htime, getMedalThresholds, hmedals]
    exact hqualifies.medal
  · refine ⟨c, h.others c hc hid, ?_⟩
    rw [getMedalThresholds, hmedals]
    exact hqualifies

end Decided

/-! ## What a flip leaves -/

section Flip

variable {userId : Nat} {g : UserQuestProgress → UserQuestProgress} {db db₁ db' : Db}

end Flip

/-! ## One verdict -/

section Verdict

variable {recordId : Nat} {db decided : Db} {c : CoreCompletion} {m : CoreMap} {now : Int}
  {bounty : Bounty}

end Verdict

/-! ## Runs of verdicts -/

section Runs

variable {db db' : Db} {l : VerdictLabel}

/-- The current rotation has just begun: no quest has counted anything. -/
def Fresh (db : Db) : Prop :=
  ∀ q ∈ db.questProgress.rows, some q.rotationId = db.currentRotationId →
    q.progress = initialProgress q.requirements

end Runs

end Genjishimada.Completions
