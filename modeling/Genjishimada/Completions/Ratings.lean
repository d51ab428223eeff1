import Genjishimada.Library.Run
import Genjishimada.Repository.Ratings

/-!
# Verified ratings

The trigger on the runs only ever sets the flag of a rating, and the vote inserts it unset.  So
the flag says whether the user has a verified run exactly as long as nobody casts a first vote
after a verified run, and nobody loses the last verified run after a vote.
-/

namespace Genjishimada.Completions

open Library Sdk Repository

/-! ## The operations -/

inductive RatingLabel where
  | vote (code : String) (userId quality : Nat)
  | submit (data : CompletionCreateRequest) (now : Int)
  | verify (recordId : Nat) (verified : Bool) (verifiedBy : Nat) (reason : Option String)
  | moderate (completionId : Nat) (verified : Bool)
deriving DecidableEq, Repr

/-- One operation; one that raises changes nothing. -/
def ratingStep (users : List Nat) (s : RatedDb) : RatingLabel → RatedDb
  | .vote code userId quality =>
      ((setQualityVoteForMapCode users code userId quality s).toOption).getD s
  | .submit data now => ((s.insertCompletion data now).toOption).getD s
  | .verify recordId verified verifiedBy reason =>
      s.updateVerification recordId verified verifiedBy reason
  | .moderate completionId verified => s.updateCompletionVerified completionId verified

/-- The user has a verified run on the map. -/
def HasVerified (core : Table CoreCompletion) (mapId userId : Nat) : Prop :=
  ∃ c ∈ core.rows, c.mapId = mapId ∧ c.userId = userId ∧ c.verified = true

/-- The flag of every rating says whether its user has a verified run on its map. -/
def FlagsRight (s : RatedDb) : Prop :=
  ∀ r ∈ s.ratings, r.verified = true ↔ HasVerified s.db.coreCompletions r.mapId r.userId

/-! ## When it goes wrong -/

/-- The vote is accepted and the first of the user on the map. -/
def FirstVote (users : List Nat) (s : RatedDb) (code : String) (userId quality : Nat)
    (m : CoreMap) : Prop :=
  checkMapExists code s.db = true ∧ fetchMapMetadataByCode (some code) s.db = some m ∧
    (1 ≤ quality ∧ quality ≤ 10) ∧ userId ∈ users ∧ ¬ Rated s.ratings m.id userId

/-- The run is the only verified one of a user who has rated the map. -/
def LastVerified (s : RatedDb) (id : Nat) : Prop :=
  ∃ c ∈ s.db.coreCompletions.rows, c.id = id ∧ c.verified = true ∧
    Rated s.ratings c.mapId c.userId ∧
    ∀ c' ∈ s.db.coreCompletions.rows, c'.mapId = c.mapId → c'.userId = c.userId →
      c'.verified = true → c'.id = id

/-- A first vote is not cast after a verified run, and the last verified run is not taken back
after a vote. -/
def InOrder (users : List Nat) (s : RatedDb) : RatingLabel → Prop
  | .vote code userId quality => ∀ m, FirstVote users s code userId quality m →
      ¬ HasVerified s.db.coreCompletions m.id userId
  | .submit _ _ => True
  | .verify recordId verified _ _ => verified = false → ¬ LastVerified s recordId
  | .moderate completionId verified => verified = false → ¬ LastVerified s completionId

/-! ## Setting `verified` -/

section SetVerified

variable {core : Table CoreCompletion} {id mapId userId : Nat} {verified : Bool}
  {f : CoreCompletion → CoreCompletion} {hf : ∀ c, key (f c) = key c} {s : RatedDb}

/-- The statement sets `verified`, and leaves it whose run it is and on which map. -/
structure SetsVerified (f : CoreCompletion → CoreCompletion) (verified : Bool) : Prop where
  verified : ∀ c, (f c).verified = verified
  mapId : ∀ c, (f c).mapId = c.mapId
  userId : ∀ c, (f c).userId = c.userId

theorem hasVerified_modify (h : SetsVerified f verified) :
    HasVerified (core.modify (fun c ↦ c.id = id) f hf) mapId userId ↔
      ∃ c ∈ core.rows, c.mapId = mapId ∧ c.userId = userId ∧
        (if c.id = id then verified else c.verified) = true := by
  constructor
  · rintro ⟨_, hmem, hmap, huser, hverified⟩
    obtain ⟨c, hc, rfl⟩ := Table.mem_modify.mp hmem
    refine ⟨c, hc, ?_⟩
    by_cases hid : c.id = id
    · rw [if_pos (by simpa using hid)] at hmap huser hverified
      rw [if_pos hid]
      exact ⟨h.mapId c ▸ hmap, h.userId c ▸ huser, h.verified c ▸ hverified⟩
    · rw [if_neg (by simpa using hid)] at hmap huser hverified
      rw [if_neg hid]
      exact ⟨hmap, huser, hverified⟩
  · rintro ⟨c, hc, hmap, huser, hverified⟩
    refine ⟨_, Table.mem_modify.mpr ⟨c, hc, rfl⟩, ?_⟩
    by_cases hid : c.id = id
    · rw [if_pos hid] at hverified
      rw [if_pos (by simpa using hid), h.mapId, h.userId, h.verified]
      exact ⟨hmap, huser, hverified⟩
    · rw [if_neg hid] at hverified
      rw [if_neg (by simpa using hid)]
      exact ⟨hmap, huser, hverified⟩

/-- A rating after the trigger is one from before, whose flag is now set if the run is its user's
on its map. -/
theorem of_mem_ratingsVerify {new : CoreCompletion} {ratings : List MapRating} {r : MapRating}
    (hr : r ∈ ratingsVerifyOnCompletion new ratings) :
    ∃ r₀ ∈ ratings, r.mapId = r₀.mapId ∧ r.userId = r₀.userId ∧
      (r.verified = true ↔
        r₀.verified = true ∨ (r₀.mapId = new.mapId ∧ r₀.userId = new.userId)) := by
  obtain ⟨r₀, hr₀, rfl⟩ := List.mem_map.mp hr
  refine ⟨r₀, hr₀, ?_⟩
  split
  · rename_i h
    exact ⟨rfl, rfl, iff_of_true rfl (.inr ⟨h.1, h.2.1⟩)⟩
  · rename_i h
    refine ⟨rfl, rfl, (or_iff_left_of_imp fun hpair ↦ ?_).symm⟩
    by_contra hnot
    exact h ⟨hpair.1, hpair.2, Bool.not_eq_true _ ▸ hnot⟩

/-- Setting the flag of a run that exists. -/
theorem flagsRight_set_true {c : CoreCompletion} (hs : FlagsRight s)
    (hc : s.db.coreCompletions.get? id = some c) (h : SetsVerified f true) {db : Db}
    (hcore : db.coreCompletions = s.db.coreCompletions.modify (fun c ↦ c.id = id) f hf) :
    FlagsRight { db, ratings := ratingsVerifyOnCompletion (f c) s.ratings } := by
  have hid := Table.key_of_get? hc
  intro r hr
  obtain ⟨r₀, hr₀, hmap, huser, hflag⟩ := of_mem_ratingsVerify hr
  rw [hcore, hasVerified_modify h, hflag, hmap, huser, hs r₀ hr₀, h.mapId, h.userId]
  constructor
  · rintro (⟨c', hc', hmap', huser', hverified⟩ | ⟨hmap', huser'⟩)
    · exact ⟨c', hc', hmap', huser', by rw [hverified, ite_self]⟩
    · exact ⟨c, Table.mem_of_get? hc, hmap'.symm, huser'.symm, if_pos hid⟩
  · rintro ⟨c', hc', hmap', huser', hverified⟩
    by_cases hid' : c'.id = id
    · obtain rfl := Table.eq_of_key_eq hc' (Table.mem_of_get? hc) (hid'.trans hid.symm)
      exact .inr ⟨hmap'.symm, huser'.symm⟩
    · exact .inl ⟨c', hc', hmap', huser', by rwa [if_neg hid'] at hverified⟩

/-- Taking back the flag of a run: the ratings stay, so another verified run has to be left. -/
theorem flagsRight_set_false (hs : FlagsRight s) (h : SetsVerified f false) {db : Db}
    (hcore : db.coreCompletions = s.db.coreCompletions.modify (fun c ↦ c.id = id) f hf) :
    FlagsRight { db, ratings := s.ratings } ↔ ¬ LastVerified s id := by
  constructor
  · rintro hright ⟨c, hc, hid, hverified, ⟨r, hr, hmap, huser⟩, hlast⟩
    have hflag : r.verified = true :=
      (hs r hr).mpr ⟨c, hc, hmap.symm, huser.symm, hverified⟩
    obtain ⟨c', hc', hmap', huser', hverified'⟩ :=
      (hasVerified_modify h).mp (hcore ▸ (hright r hr).mp hflag)
    by_cases hid' : c'.id = id
    · rw [if_pos hid'] at hverified'
      cases hverified'
    · rw [if_neg hid'] at hverified'
      exact hid' (hlast c' hc' (hmap'.trans hmap) (huser'.trans huser) hverified')
  · intro hnot r hr
    rw [hs r hr, hcore, hasVerified_modify h]
    constructor
    · rintro ⟨c, hc, hmap, huser, hverified⟩
      -- the run itself, or another one when it is the run whose flag goes
      by_cases hid : c.id = id
      · by_contra hnone
        refine hnot ⟨c, hc, hid, hverified, ⟨r, hr, hmap.symm, huser.symm⟩, ?_⟩
        intro c' hc' hmap' huser' hverified'
        by_contra hid'
        exact hnone ⟨c', hc', hmap'.trans hmap, huser'.trans huser, by rwa [if_neg hid']⟩
      · exact ⟨c, hc, hmap, huser, by rwa [if_neg hid]⟩
    · rintro ⟨c, hc, hmap, huser, hverified⟩
      by_cases hid : c.id = id
      · rw [if_pos hid] at hverified
        cases hverified
      · exact ⟨c, hc, hmap, huser, by rwa [if_neg hid] at hverified⟩

/-- The statement and the trigger after it. -/
theorem flagsRight_setVerified (hf : ∀ c, key (f c) = key c) (hs : FlagsRight s) (h : SetsVerified f verified) {db : Db}
    (hcore : db.coreCompletions = s.db.coreCompletions.modify (fun c ↦ c.id = id) f hf) :
    FlagsRight { db, ratings := trgRatingsVerifyOnCompletion id db s.ratings } ↔
      (verified = false → ¬ LastVerified s id) := by
  have hget : db.coreCompletions.get? id = (s.db.coreCompletions.get? id).map f := by
    rw [hcore, Table.get?_modify]
    cases hc : s.db.coreCompletions.get? id with
    | none => rfl
    | some c => simpa using fun hid : ¬ c.id = id ↦ absurd (Table.key_of_get? hc) hid
  cases verified with
  | false =>
      have hratings : trgRatingsVerifyOnCompletion id db s.ratings = s.ratings := by
        rw [trgRatingsVerifyOnCompletion, hget]
        cases s.db.coreCompletions.get? id with
        | none => rfl
        | some c => exact if_neg (by simp [h.verified])
      rw [hratings, flagsRight_set_false hs h hcore]
      exact ⟨fun hnot _ ↦ hnot, fun hnot ↦ hnot rfl⟩
  | true =>
      refine iff_of_true ?_ (by simp)
      rw [trgRatingsVerifyOnCompletion, hget]
      cases hc : s.db.coreCompletions.get? id with
      | some c =>
          rw [Option.map_some]
          simp only [h.verified, if_true]
          exact flagsRight_set_true hs hc h hcore
      | none =>
          intro r hr
          rw [hs r hr, hcore, hasVerified_modify h]
          refine exists_congr fun c ↦ and_congr_right fun hmem ↦ ?_
          have hid : c.id ≠ id := Table.get?_eq_none_iff.mp hc c hmem
          rw [if_neg hid]

end SetVerified

section Verdict

variable {s : RatedDb} {id verifiedBy : Nat} {verified : Bool} {reason : Option String}

theorem flagsRight_verify (hs : FlagsRight s) :
    FlagsRight (s.updateVerification id verified verifiedBy reason) ↔
      (verified = false → ¬ LastVerified s id) :=
  flagsRight_setVerified
    (f := fun c ↦ { c with verified := verified, verifiedBy := some verifiedBy, reason := reason })
    (fun _ ↦ rfl) hs ⟨fun _ ↦ rfl, fun _ ↦ rfl, fun _ ↦ rfl⟩ rfl

theorem flagsRight_moderate (hs : FlagsRight s) :
    FlagsRight (s.updateCompletionVerified id verified) ↔
      (verified = false → ¬ LastVerified s id) :=
  flagsRight_setVerified (f := fun c ↦ { c with verified := verified }) (fun _ ↦ rfl)
    hs ⟨fun _ ↦ rfl, fun _ ↦ rfl, fun _ ↦ rfl⟩ rfl

end Verdict

/-! ## Votes and submissions -/

section Vote

variable {users : List Nat} {code : String} {userId quality : Nat} {s : RatedDb}

/-- The same flags for the same users and maps. -/
def SameFlags (ratings ratings' : List MapRating) : Prop :=
  ∀ r ∈ ratings', ∃ r₀ ∈ ratings,
    r.mapId = r₀.mapId ∧ r.userId = r₀.userId ∧ r.verified = r₀.verified

theorem FlagsRight.of_sameFlags (hs : FlagsRight s) {ratings : List MapRating}
    (h : SameFlags s.ratings ratings) : FlagsRight { s with ratings } := by
  intro r hr
  obtain ⟨r₀, hr₀, hmap, huser, hverified⟩ := h r hr
  rw [hverified, hmap, huser]
  exact hs r₀ hr₀

/-- A vote is the first of its user on the map, or leaves the flags alone. -/
theorem vote_cases (users : List Nat) (code : String) (userId quality : Nat) (s : RatedDb) :
    (∃ m, FirstVote users s code userId quality m ∧
      ratingStep users s (.vote code userId quality) =
        { s with ratings := s.ratings ++ [{ mapId := m.id, userId, quality }] }) ∨
    (∀ m, ¬ FirstVote users s code userId quality m) ∧
      ∃ ratings, ratingStep users s (.vote code userId quality) = { s with ratings } ∧
        SameFlags s.ratings ratings := by
  have hsame : SameFlags s.ratings s.ratings := fun r hr ↦ ⟨r, hr, rfl, rfl, rfl⟩
  rw [ratingStep, setQualityVoteForMapCode]
  by_cases hcheck : checkMapExists code s.db = true
  · rw [if_pos hcheck, upsertQualityVote]
    cases hm : fetchMapMetadataByCode (some code) s.db with
    | none =>
        refine .inr ⟨?_, _, rfl, hsame⟩
        rintro m ⟨-, hm', -⟩
        rw [hm] at hm'
        cases hm'
    | some m =>
        dsimp only
        by_cases hquality : quality < 1 ∨ 10 < quality
        · rw [if_pos hquality]
          refine .inr ⟨?_, _, rfl, hsame⟩
          rintro m' ⟨-, -, hrange, -⟩
          omega
        · rw [if_neg hquality]
          by_cases hrated : Rated s.ratings m.id userId
          · rw [if_pos hrated]
            refine .inr ⟨?_, _, rfl, fun r hr ↦ ?_⟩
            · rintro m' ⟨-, hm', -, -, hnot⟩
              obtain rfl := Option.some.inj (hm.symm.trans hm')
              exact hnot hrated
            · obtain ⟨r₀, hr₀, rfl⟩ := List.mem_map.mp hr
              refine ⟨r₀, hr₀, ?_⟩
              split <;> exact ⟨rfl, rfl, rfl⟩
          · rw [if_neg hrated]
            by_cases huser : userId ∈ users
            · rw [if_pos huser]
              exact .inl ⟨m, ⟨hcheck, hm, by omega, huser, hrated⟩, rfl⟩
            · rw [if_neg huser]
              refine .inr ⟨?_, _, rfl, hsame⟩
              rintro m' ⟨-, -, -, huser', -⟩
              exact huser huser'
  · rw [if_neg hcheck]
    refine .inr ⟨?_, _, rfl, hsame⟩
    rintro m ⟨hcheck', -⟩
    exact hcheck hcheck'

/-- A first vote is inserted unset. -/
theorem flagsRight_vote (hs : FlagsRight s) :
    FlagsRight (ratingStep users s (.vote code userId quality)) ↔
      InOrder users s (.vote code userId quality) := by
  rcases vote_cases users code userId quality s with ⟨m, hfirst, heq⟩ | ⟨hnone, ratings, heq, hsame⟩
  · rw [heq]
    constructor
    · intro hright m' hfirst' hverified
      obtain rfl := Option.some.inj (hfirst.2.1.symm.trans hfirst'.2.1)
      have hflag := (hright _ (List.mem_append_right _ List.mem_cons_self)).mpr hverified
      cases hflag
    · intro horder r hr
      rcases List.mem_append.mp hr with hr | hr
      · exact hs r hr
      · obtain rfl := List.mem_singleton.mp hr
        exact iff_of_false Bool.false_ne_true (horder m hfirst)
  · rw [heq]
    exact iff_of_true (hs.of_sameFlags hsame) fun m hfirst ↦ absurd hfirst (hnone m)

end Vote

section Submit

variable {s : RatedDb} {data : CompletionCreateRequest} {now : Int}

/-- A new run is not verified, so the trigger does not fire. -/
theorem flagsRight_submit (users : List Nat) (hs : FlagsRight s) :
    FlagsRight (ratingStep users s (.submit data now)) := by
  rw [ratingStep, RatedDb.insertCompletion]
  cases hins : insertCompletion data now s.db with
  | error e => exact hs
  | ok p =>
      obtain ⟨id, db⟩ := p
      rcases insertCompletion_cases hins with ⟨rfl, rfl⟩ | ⟨m, rfl, rfl⟩
      · exact hs
      · let core := s.db.coreCompletions.insert (newCompletion data m now)
          (key_newCompletion data m now)
        have hget : core.get? s.db.coreCompletions.nextId =
            some (newCompletion data m now s.db.coreCompletions.nextId) := by
          rw [Table.get?_insert, if_pos rfl]
        have htrg : trgRatingsVerifyOnCompletion s.db.coreCompletions.nextId
            { s.db with coreCompletions := core } s.ratings = s.ratings := by
          simp only [trgRatingsVerifyOnCompletion, hget]
          rfl
        intro r hr
        have hmem : r ∈ trgRatingsVerifyOnCompletion s.db.coreCompletions.nextId
          { s.db with coreCompletions := core } s.ratings := hr
        rw [htrg] at hmem
        rw [hs r hmem]
        refine exists_congr fun c ↦ ?_
        change _ ↔ c ∈ core.rows ∧ _
        rw [Table.mem_insert]
        constructor
        · rintro ⟨hc, h⟩
          exact ⟨.inl hc, h⟩
        · rintro ⟨hc | rfl, hmap, huser, hverified⟩
          · exact ⟨hc, hmap, huser, hverified⟩
          · cases hverified

end Submit

/-! ## Runs -/

/-- **At every moment the flags are right exactly when the votes, verdicts and revocations come in
order.** -/
theorem flagsRight_iff (users : List Nat) (db : Db) (ls : List RatingLabel) (s : RatedDb) :
    Run (fun s l s' ↦ s' = ratingStep users s l ∧ FlagsRight s') { db } ls s ↔
      Run (Guarded (InOrder users) fun s l s' ↦ s' = ratingStep users s l) { db } ls s := by
  have hstep : ∀ (s : RatedDb) l, FlagsRight s →
      (FlagsRight (ratingStep users s l) ↔ InOrder users s l) := by
    intro s l hs
    cases l with
    | vote code userId quality => exact flagsRight_vote hs
    | submit data now => exact iff_of_true (flagsRight_submit users hs) trivial
    | verify recordId verified verifiedBy reason => exact flagsRight_verify hs
    | moderate completionId verified => exact flagsRight_moderate hs
  apply Run.congr FlagsRight
  · intro s l s' hs
    rw [Guarded, and_comm]
    constructor
    · rintro ⟨hright, rfl⟩
      exact ⟨(hstep s l hs).mp hright, rfl⟩
    · rintro ⟨horder, rfl⟩
      exact ⟨(hstep s l hs).mpr horder, rfl⟩
  · exact fun s l s' _ h ↦ h.2
  · intro r hr
    cases hr

/-- A user votes after the run has been verified. -/
theorem voteAfterVerdict_not_right :
    let data : CompletionCreateRequest :=
      { code := "AAAA", userId := 5, time := 1000, screenshot := "", video := none }
    let db : Db := { maps := Table.empty.insert fun id ↦
      { id, code := some "AAAA", difficulty := .easy } }
    ∃ s, Run (fun s l s' ↦ s' = ratingStep [5] s l) { db }
        [.submit data 0, .verify 1 true 9 none, .vote "AAAA" 5 6] s ∧
      HasVerified s.db.coreCompletions 1 5 ∧
      s.ratings = [{ mapId := 1, userId := 5, quality := 6, verified := false }] := by
  refine ⟨_, .cons rfl (.cons rfl (.cons rfl (.nil _))), ?_, rfl⟩
  exact ⟨_, List.mem_cons_self, rfl, rfl, rfl⟩

end Genjishimada.Completions
