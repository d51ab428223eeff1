import Genjishimada.Services.Completions

/-!
# The two verdict paths

A moderator decides a run through `verify_completion` or through `moderate_completion`.
Both flip the quests of the run the same way.  Only the first carries the verdict over to
the tournament row of the run.
-/

namespace Genjishimada.Completions

open Library Sdk Repository Services

section Verdict

variable (completionId : Nat) (data : CompletionVerificationUpdateRequest) (moderatedBy : Nat)
  (headers : Headers) (now : Int) (provision : Provision) (w : World Db Event)

end Verdict

end Genjishimada.Completions
