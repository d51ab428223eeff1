import Genjishimada.Repository.ChangeRequests
import Mathlib.Data.List.Infix

/-!
# `services/change_requests_service.py`
-/

namespace Genjishimada.Services

open Repository

/-- Why `create_request` raises. -/
inductive ChangeRequestError where
  | mapNotFound (code : String)
  | alreadyExists (threadId : Nat)
  | /-- The violation of a foreign key that is not the code. -/
    constraint
deriving DecidableEq, Repr

/-- `needle in haystack` -/
def isIn (needle haystack : String) : Bool := needle.toList <:+: haystack.toList

/-- `check_permission` -/
def checkPermission (threadId userId : Nat) (code : String) (db : ChangeRequestDb) : Bool :=
  match db.fetchCreatorMentions threadId code with
  | none => false
  | some creatorMentions => creatorMentions ≠ "" && isIn (toString userId) creatorMentions

/-- `create_request` -/
def createChangeRequest (data : ChangeRequestCreateRequest) (now : Int) (db : ChangeRequestDb) :
    Except ChangeRequestError ChangeRequestDb :=
  if data.code ∉ db.codes then .error (.mapNotFound data.code)
  else
    match db.createRequest data now with
    | .ok db => .ok db
    | .error .thread => .error (.alreadyExists data.threadId)
    | .error .user => .error .constraint

end Genjishimada.Services
