import Genjishimada.Repository.Completions

/-!
# `maps.ratings`

The quality votes, with the trigger `ratings_verify_on_completion` on the runs.  The statements
that set the `verified` of a run are those of `repository/completions_repository.py`, followed by
the trigger.
-/

namespace Genjishimada.Repository

open Library Sdk

/-- A row of `maps.ratings`. -/
structure MapRating where
  mapId : Nat
  userId : Nat
  quality : Nat
  verified : Bool := false
deriving DecidableEq, Repr

/-- The database with the ratings. -/
structure RatedDb where
  db : Db := {}
  ratings : List MapRating := []

/-- `maps.ratings_verify_on_completion()` -/
def ratingsVerifyOnCompletion (new : CoreCompletion) (ratings : List MapRating) : List MapRating :=
  ratings.map fun r ↦
    if r.mapId = new.mapId ∧ r.userId = new.userId ∧ r.verified = false then
      { r with verified := true }
    else r

/-- `AFTER INSERT OR UPDATE OF verified … WHEN ( new.verified IS TRUE )`, for the row of an id. -/
def trgRatingsVerifyOnCompletion (id : Nat) (db : Db) (ratings : List MapRating) : List MapRating :=
  match db.coreCompletions.get? id with
  | some new => if new.verified then ratingsVerifyOnCompletion new ratings else ratings
  | none => ratings

namespace RatedDb

/-- `insert_completion` -/
def insertCompletion (s : RatedDb) (data : CompletionCreateRequest) (now : Int) :
    Except InsertError RatedDb := do
  let (id, db) ← Repository.insertCompletion data now s.db
  return { db, ratings := id.elim s.ratings fun id ↦ trgRatingsVerifyOnCompletion id db s.ratings }

/-- `update_verification` -/
def updateVerification (s : RatedDb) (recordId : Nat) (verified : Bool) (verifiedBy : Nat)
    (reason : Option String) : RatedDb :=
  let db := Repository.updateVerification recordId verified verifiedBy reason s.db
  { db, ratings := trgRatingsVerifyOnCompletion recordId db s.ratings }

/-- `update_completion_verified` -/
def updateCompletionVerified (s : RatedDb) (completionId : Nat) (verified : Bool) : RatedDb :=
  let db := Repository.updateCompletionVerified completionId verified s.db
  { db, ratings := trgRatingsVerifyOnCompletion completionId db s.ratings }

end RatedDb

inductive VoteError where
  | mapNotFound
  | checkViolation
  | foreignKeyViolation
deriving DecidableEq, Repr

/-- The user has a rating of the map. -/
def Rated (ratings : List MapRating) (mapId userId : Nat) : Prop :=
  ∃ r ∈ ratings, r.mapId = mapId ∧ r.userId = userId

instance (ratings : List MapRating) (mapId userId : Nat) : Decidable (Rated ratings mapId userId) :=
  inferInstanceAs (Decidable (∃ r ∈ ratings, _))

/-- `upsert_quality_vote`: a code that no map has inserts nothing. -/
def upsertQualityVote (users : List Nat) (code : String) (userId quality : Nat) (s : RatedDb) :
    Except VoteError RatedDb :=
  match fetchMapMetadataByCode (some code) s.db with
  | none => .ok s
  | some m =>
      if quality < 1 ∨ 10 < quality then .error .checkViolation
      else if Rated s.ratings m.id userId then
        .ok { s with
          ratings := s.ratings.map fun r ↦
            if r.mapId = m.id ∧ r.userId = userId then { r with quality } else r }
      else if userId ∈ users then
        .ok { s with ratings := s.ratings ++ [{ mapId := m.id, userId, quality }] }
      else .error .foreignKeyViolation

/-- `CompletionsService.set_quality_vote_for_map_code` -/
def setQualityVoteForMapCode (users : List Nat) (code : String) (userId quality : Nat)
    (s : RatedDb) : Except VoteError RatedDb :=
  if checkMapExists code s.db then upsertQualityVote users code userId quality s
  else .error .mapNotFound

end Genjishimada.Repository
