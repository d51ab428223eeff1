import Genjishimada.Services.QuestAdmin

/-!
# What an admin update leaves of a quest

A patch of the requirements is lost: the struct it is in is not converted to a dict, and only dicts
are merged.  A quest that is marked as completed gets the progress that its type is patched with,
which is not always the progress that its type is tested for.
-/

namespace Genjishimada.Store

open Library Sdk Services.QuestAdmin

/-! ## What is asked -/

section Merge

variable {existing : QuestDict} {patch : PatchQuestData}

end Merge

/-! ## A quest that is marked as completed -/

section Completed

variable {progress : Progress} {requirements : Requirements}

end Completed

/-! ## The row -/

section Row

variable {now : Int} {userId progressId : Nat} {data : AdminUpdateUserQuestRequest}
  {d d' : QuestAdminDb} {row : UserQuestProgressRow}

end Row

end Genjishimada.Store
