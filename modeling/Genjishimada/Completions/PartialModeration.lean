import Genjishimada.Services.Completions

/-!
# Moderations that raise

`moderate_completion` checks each part of the request when it comes to it, and what the parts before
have written is committed by then.  So a request that raises on its flags, or on the quests of the
run, leaves the time and the verdict it has already changed.
-/

namespace Genjishimada.Completions

open Library Sdk Repository Services

/-- The run, the flags and the quests are as they were. -/
structure Untouched (completionId : Nat) (db db' : Db) : Prop where
  row : db'.coreCompletions.get? completionId = db.coreCompletions.get? completionId
  flags : db'.suspiciousFlags = db.suspiciousFlags
  questProgress : db'.questProgress = db.questProgress

theorem Untouched.refl (completionId : Nat) (db : Db) : Untouched completionId db db := ⟨rfl, rfl, rfl⟩

variable (users : List Nat) (completionId : Nat) (data : CompletionModerateRequest)
  (info : CompletionInfo) (now : Int) (provision : Provision) (w : World Db Event)

/-! ## The time -/

/-- The request flips the run. -/
def flips : Bool := data.verified.any fun v ↦ v != info.oldVerified

/-- The database once the verdict is written. -/
def decided (db : Db) : Db :=
  match data.verified with
  | none => db
  | some verified => updateCompletionVerified completionId verified db

/-- The request changes the time of the run or its verdict. -/
def changes : Bool := flips data info || data.time.any fun t ↦ t != info.oldTime

end Genjishimada.Completions
