import Mathlib.Data.List.Basic
import Mathlib.Data.List.Nodup

/-!
# `repository/change_requests_repository.py`

A request is the row of its thread.  Its code follows the code of the map (`ON UPDATE CASCADE`).
-/

namespace Genjishimada.Repository

/-- A row of `public.change_requests`. -/
structure ChangeRequest where
  threadId : Nat
  code : Option String
  userId : Nat
  resolved : Bool := false
  createdAt : Int
  changeRequestType : String
  content : String
  creatorMentions : String
  alerted : Bool := false
deriving DecidableEq, Repr

/-- The table, and the codes and users that its rows refer to. -/
structure ChangeRequestDb where
  rows : List ChangeRequest := []
  codes : List String := []
  users : List Nat := []
  /-- `thread_id bigint PRIMARY KEY` -/
  threads : (rows.map ChangeRequest.threadId).Nodup := by exact List.nodup_nil

/-- `INTERVAL '2 weeks'`, in microseconds. -/
def twoWeeks : Int := 1209600000000

structure ChangeRequestCreateRequest where
  threadId : Nat
  userId : Nat
  code : String
  content : String
  changeRequestType : String
  creatorMentions : String
deriving DecidableEq, Repr

/-- `StaleChangeRequestResponse` -/
structure StaleChangeRequest where
  threadId : Nat
  userId : Nat
  creatorMentions : String
deriving DecidableEq, Repr

/-- The constraint that an `INSERT` violates. -/
inductive ChangeRequestConstraint where
  | /-- `change_requests_pkey` -/
    thread
  | /-- `change_requests_user_id_fkey` -/
    user
deriving DecidableEq, Repr

namespace ChangeRequestDb

variable (db : ChangeRequestDb)

/-- `UPDATE … SET f WHERE thread_id = $1`, for an `f` that leaves the thread alone. -/
def modify (p : ChangeRequest → Bool) (f : ChangeRequest → ChangeRequest)
    (hf : ∀ r, (f r).threadId = r.threadId) : ChangeRequestDb :=
  { db with
    rows := db.rows.map fun r ↦ if p r then f r else r
    threads := by
      have hmap : ChangeRequest.threadId ∘ (fun r ↦ if p r then f r else r) =
          ChangeRequest.threadId := by
        funext r
        rw [Function.comp_apply]
        split
        · exact hf r
        · rfl
      rw [List.map_map, hmap]
      exact db.threads }

def fetchCreatorMentions (threadId : Nat) (code : String) : Option String :=
  (db.rows.find? fun r ↦ r.threadId = threadId ∧ r.code = some code).map (·.creatorMentions)

/-- `create_request`; a code that no map has inserts nothing. -/
def createRequest (data : ChangeRequestCreateRequest) (now : Int) :
    Except ChangeRequestConstraint ChangeRequestDb :=
  if data.code ∉ db.codes then .ok db
  else if hthread : data.threadId ∈ db.rows.map ChangeRequest.threadId then .error .thread
  else if data.userId ∉ db.users then .error .user
  else
    .ok { db with
      rows := db.rows ++ [
        { threadId := data.threadId, code := some data.code, userId := data.userId, createdAt := now
          changeRequestType := data.changeRequestType, content := data.content
          creatorMentions := data.creatorMentions }]
      threads := by
        rw [List.map_append, List.map_singleton, List.nodup_append']
        exact ⟨db.threads, List.nodup_singleton _,
          List.disjoint_singleton.mpr hthread⟩ }

def markResolved (threadId : Nat) : ChangeRequestDb :=
  db.modify (fun r ↦ r.threadId = threadId) (fun r ↦ { r with resolved := true }) fun _ ↦ rfl

def markAlerted (threadId : Nat) : ChangeRequestDb :=
  db.modify (fun r ↦ r.threadId = threadId) (fun r ↦ { r with alerted := true }) fun _ ↦ rfl

/-- `WHERE created_at < NOW() - INTERVAL '2 weeks' AND alerted IS FALSE AND resolved IS FALSE` -/
def isStale (now : Int) (r : ChangeRequest) : Bool :=
  r.createdAt < now - twoWeeks ∧ r.alerted = false ∧ r.resolved = false

def fetchStaleRequests (now : Int) : List StaleChangeRequest :=
  (db.rows.filter (isStale now)).map fun r ↦
    { threadId := r.threadId, userId := r.userId, creatorMentions := r.creatorMentions }

/-- The code of a map changes, or is released: the rows follow. -/
def recode (old : String) (new : Option String) : ChangeRequestDb :=
  { db.modify (fun r ↦ r.code = some old) (fun r ↦ { r with code := new }) fun _ ↦ rfl with
    codes := db.codes.erase old ++ new.toList }

end ChangeRequestDb

end Genjishimada.Repository
