import Genjishimada.Repository.Mastery
import Genjishimada.Services.Completions

/-!
# Map mastery after a verdict

`update_mastery` of `services/maps_service.py`, and `_process_map_mastery` of the bot, which calls
it for each row of `get_map_mastery_data`.
-/

namespace Genjishimada.Services

open Library Sdk Repository

/-- `update_mastery` -/
def updateMastery (t : MasteryTables) (userId : Nat) (m : MapMasteryResponse) : MasteryTables :=
  (t.upsertMapMastery m.mapName userId m.level).2

/-- `_process_map_mastery`; `none` if there is no such user. -/
def processMapMastery (textLe : String → String → Bool) (userId : Nat) (t : MasteryTables) :
    Option MasteryTables :=
  if userId ∈ t.users then
    some ((t.getMapMasteryData textLe userId none).foldl (fun t m ↦ updateMastery t userId m) t)
  else none

/-- The tables, and the rest of what the services of completions see. -/
structure MasterySite where
  world : World Db Event
  users : List Nat := []
  names : List String := []
  mastery : Nat → String → Option String := fun _ _ ↦ none

/-- The tables of map mastery. -/
def MasterySite.tables (s : MasterySite) : MasteryTables :=
  { db := s.world.db, users := s.users, names := s.names, mastery := s.mastery }

/-- A submission, a verdict or a moderation of a run, or a mastery update. -/
inductive MasteryCall where
  | submit (data : CompletionCreateRequest) (headers : Headers) (now : Int)
  | verify (recordId : Nat) (data : CompletionVerificationUpdateRequest) (headers : Headers)
      (now : Int) (provision : Provision)
  | moderate (completionId : Nat) (data : CompletionModerateRequest) (now : Int)
      (provision : Provision)
  | process (userId : Nat)

/-- What a call leaves, whether or not it raises. -/
def MasteryCall.after (textLe : String → String → Bool) (s : MasterySite) :
    MasteryCall → MasterySite
  | .submit data headers now => { s with world := final (submitCompletion data headers now s.world) }
  | .verify recordId data headers now provision =>
      { s with world := final (verifyCompletion recordId data headers now provision s.world) }
  | .moderate completionId data now provision =>
      { s with world := final (moderateCompletion completionId data now provision s.world) }
  | .process userId =>
      match processMapMastery textLe userId s.tables with
      | some t => { s with mastery := t.mastery }
      | none => s

end Genjishimada.Services
