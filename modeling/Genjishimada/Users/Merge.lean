import Genjishimada.Repository.Users

/-!
# Linking a fake member

`link_fake_member_id_to_real_user_id` gives the real user the creator credits of the fake one
and deletes the fake user.  The rest is decided by the foreign keys: what cascades is gone,
and what does not makes the call raise.
-/

namespace Genjishimada.Users

open Library Repository

/-! ## The call -/

inductive MergeError where
  | userNotFound (userId : Nat)
  | uniqueViolation
  | foreignKeyViolation
deriving DecidableEq, Repr

/-- `link_fake_member_id_to_real_user_id` -/
def linkFakeMember (fake real : Nat) (d : UsersDb) : Except MergeError UsersDb :=
  if !d.checkUserExists real then .error (.userNotFound real)
  else
    match d.updateMapsCreatorsForFakeMember fake real with
    | none => .error .uniqueViolation
    | some credited =>
        match credited.deleteUser fake with
        | none => .error .foreignKeyViolation
        | some deleted => .ok deleted

/-! ## What a merge should keep -/

/-- What referred to the fake user refers to the real one, whose account and data are there. -/
structure Merged (d : UsersDb) (fake real : Nat) (d' : UsersDb) : Prop where
  creators : ∀ c ∈ d.creators, c.userId = fake → { c with userId := real } ∈ d'.creators
  guides : ∀ g ∈ d.guides.rows, g.userId = some fake →
    { g with userId := some real } ∈ d'.guides.rows
  completions : ∀ c ∈ d.completions.rows, c.userId = fake →
    { c with userId := real } ∈ d'.completions.rows
  ratings : ∀ r ∈ d.ratings.rows, r.userId = some fake →
    { r with userId := some real } ∈ d'.ratings.rows
  votes : ∀ v ∈ d.votes.rows, v.userId = some fake →
    { v with userId := some real } ∈ d'.votes.rows
  upvotes : ∀ u ∈ d.upvotes.rows, u.userId = fake → { u with userId := real } ∈ d'.upvotes.rows
  account : real ∈ d'.users
  ownCreators : ∀ c ∈ d.creators, c.userId = real → c ∈ d'.creators
  ownGuides : ∀ g ∈ d.guides.rows, g.userId = some real → g ∈ d'.guides.rows
  ownCompletions : ∀ c ∈ d.completions.rows, c.userId = real → c ∈ d'.completions.rows
  ownRatings : ∀ r ∈ d.ratings.rows, r.userId = some real → r ∈ d'.ratings.rows
  ownVotes : ∀ v ∈ d.votes.rows, v.userId = some real → v ∈ d'.votes.rows
  ownUpvotes : ∀ u ∈ d.upvotes.rows, u.userId = real → u ∈ d'.upvotes.rows
  ownFlags : ∀ f ∈ d.flags.rows, f.userId = some real ∨ f.flaggedBy = some real → f ∈ d'.flags.rows
  ownReferences : ∀ r ∈ d.references, r.userId = real → r ∈ d'.references

/-- The call raises, which leaves everything as it was, or loses nothing. -/
def LosesNothing (d : UsersDb) (fake real : Nat) : Prop :=
  ∀ d', linkFakeMember fake real d = .ok d' → Merged d fake real d'

/-- The call is refused. -/
def Refused (d : UsersDb) (fake real : Nat) : Prop :=
  real ∉ d.users ∨ d.creditsBoth fake real = true ∨ fake ∈ d.users ∧ d.restricted fake = true

/-- The fake user is another one and has nothing but credits. -/
structure OnlyCredits (d : UsersDb) (fake real : Nat) : Prop where
  ne : fake ≠ real
  guides : ∀ g ∈ d.guides.rows, g.userId ≠ some fake
  completions : ∀ c ∈ d.completions.rows, c.userId ≠ fake
  ratings : ∀ r ∈ d.ratings.rows, r.userId ≠ some fake
  votes : ∀ v ∈ d.votes.rows, v.userId ≠ some fake
  upvotes : ∀ u ∈ d.upvotes.rows, u.userId ≠ fake
  flags : fake ∈ d.users → ∀ f ∈ d.flags.rows,
    f.userId = some real ∨ f.flaggedBy = some real →
      f.userId ≠ some fake ∧ f.flaggedBy ≠ some fake

section Merge

variable {d d' : UsersDb} {fake real : Nat}

/-- The credits after the update. -/
def recredited (d : UsersDb) (fake real : Nat) : UsersDb :=
  { d with
    creators := d.creators.map fun c ↦ if c.userId = fake then { c with userId := real } else c }

/-- A call that is not refused deletes the fake user, if there is one. -/
theorem linkFakeMember_of_not_refused (h : ¬ Refused d fake real) : linkFakeMember fake real d =
    .ok (if fake ∈ d.users then (recredited d fake real).cascade fake
      else recredited d fake real) := by
  simp only [Refused, not_or, not_and, not_not] at h
  obtain ⟨hreal, hcredits, hrestricted⟩ := h
  have hupdate : d.updateMapsCreatorsForFakeMember fake real = some (recredited d fake real) := by
    rw [UsersDb.updateMapsCreatorsForFakeMember, if_neg hcredits]
    rfl
  have hexists : d.checkUserExists real = true := decide_eq_true hreal
  simp only [linkFakeMember, hexists, hupdate, Bool.not_true, Bool.false_eq_true, if_false]
  by_cases hfake : fake ∈ d.users
  · have hfree : (recredited d fake real).restricted fake = false :=
      Bool.not_eq_true _ ▸ hrestricted hfake
    have hfake' : fake ∈ (recredited d fake real).users := hfake
    rw [UsersDb.deleteUser, if_pos hfake', if_neg (by rw [hfree]; decide), if_pos hfake]
  · have hfake' : fake ∉ (recredited d fake real).users := hfake
    rw [UsersDb.deleteUser, if_neg hfake', if_neg hfake]

theorem linkFakeMember_of_refused (h : Refused d fake real) :
    ∃ e, linkFakeMember fake real d = .error e := by
  rw [linkFakeMember]
  by_cases hreal : real ∈ d.users
  · have hexists : d.checkUserExists real = true := decide_eq_true hreal
    rw [hexists, UsersDb.updateMapsCreatorsForFakeMember]
    by_cases hcredits : d.creditsBoth fake real = true
    · rw [if_pos hcredits]
      exact ⟨_, rfl⟩
    · rw [if_neg hcredits]
      obtain ⟨hfake, hrestricted⟩ : fake ∈ d.users ∧ d.restricted fake = true := by
        rcases h with h | h | h
        · exact absurd hreal h
        · exact absurd h hcredits
        · exact h
      refine ⟨.foreignKeyViolation, ?_⟩
      have hdelete : (recredited d fake real).deleteUser fake = none := by
        have hfake' : fake ∈ (recredited d fake real).users := hfake
        have hrestricted' : (recredited d fake real).restricted fake = true := hrestricted
        rw [UsersDb.deleteUser, if_pos hfake', if_pos hrestricted']
      rw [recredited] at hdelete
      simp only [Bool.not_true, Bool.false_eq_true, if_false, hdelete]
  · have hexists : d.checkUserExists real = false := decide_eq_false hreal
    rw [hexists]
    exact ⟨_, rfl⟩

/-- No row changes its user under its key. -/
theorem eq_of_mem_of_key {α : Type} [Keyed α] {t t' : Table α} {r r' : α}
    (hsub : ∀ r ∈ t'.rows, r ∈ t.rows) (hr : r ∈ t.rows) (hr' : r' ∈ t'.rows)
    (hkey : key r' = key r) : r' = r :=
  Table.eq_of_key_eq (hsub r' hr') hr hkey

/-- The tables of a user after the call: no row is new. -/
structure Shrinks (d d' : UsersDb) : Prop where
  guides : ∀ g ∈ d'.guides.rows, g ∈ d.guides.rows
  completions : ∀ c ∈ d'.completions.rows, c ∈ d.completions.rows
  ratings : ∀ r ∈ d'.ratings.rows, r ∈ d.ratings.rows
  votes : ∀ v ∈ d'.votes.rows, v ∈ d.votes.rows
  upvotes : ∀ u ∈ d'.upvotes.rows, u ∈ d.upvotes.rows

theorem shrinks_cascade (d : UsersDb) (fake real : Nat) :
    Shrinks d ((recredited d fake real).cascade fake) := by
  constructor <;> exact fun _ hr ↦ (List.mem_filter.mp hr).1

theorem shrinks_recredited (d : UsersDb) (fake real : Nat) : Shrinks d (recredited d fake real) := by
  constructor <;> exact fun _ hr ↦ hr

/-- A merge that loses nothing has only credits to move. -/
theorem Merged.onlyCredits (h : Merged d fake real d') (hshrinks : Shrinks d d')
    (hne : fake ≠ real)
    (hflags : fake ∈ d.users → ∀ f ∈ d'.flags.rows, f.userId ≠ some fake ∧ f.flaggedBy ≠ some fake) :
    OnlyCredits d fake real := by
  have hsome : some real ≠ some fake := fun heq ↦ hne (Option.some.inj heq).symm
  refine ⟨hne, fun g hg hfake ↦ ?_, fun c hc hfake ↦ ?_, fun r hr hfake ↦ ?_, fun v hv hfake ↦ ?_,
    fun u hu hfake ↦ ?_, fun hfake f hf hown ↦ hflags hfake f (h.ownFlags f hf hown)⟩
  · have heq := eq_of_mem_of_key hshrinks.guides hg (h.guides g hg hfake) rfl
    rw [← heq] at hfake
    exact hsome hfake
  · have heq := eq_of_mem_of_key hshrinks.completions hc (h.completions c hc hfake) rfl
    rw [← heq] at hfake
    exact hne hfake.symm
  · have heq := eq_of_mem_of_key hshrinks.ratings hr (h.ratings r hr hfake) rfl
    rw [← heq] at hfake
    exact hsome hfake
  · have heq := eq_of_mem_of_key hshrinks.votes hv (h.votes v hv hfake) rfl
    rw [← heq] at hfake
    exact hsome hfake
  · have heq := eq_of_mem_of_key hshrinks.upvotes hu (h.upvotes u hu hfake) rfl
    rw [← heq] at hfake
    exact hne hfake.symm

theorem mem_recredited {c : MapCreator} (hc : c ∈ d.creators) :
    (if c.userId = fake then { c with userId := real } else c) ∈ (recredited d fake real).creators :=
  List.mem_map.mpr ⟨c, hc, rfl⟩

/-- Where there are only credits, the update alone loses nothing. -/
theorem OnlyCredits.merged_recredited (h : OnlyCredits d fake real) (hreal : real ∈ d.users) :
    Merged d fake real (recredited d fake real) where
  creators := by
    intro c hc hfake
    have hmem : (if c.userId = fake then { c with userId := real } else c) ∈
      (recredited d fake real).creators := mem_recredited hc
    rwa [if_pos hfake] at hmem
  guides := fun g hg hfake ↦ absurd hfake (h.guides g hg)
  completions := fun c hc hfake ↦ absurd hfake (h.completions c hc)
  ratings := fun r hr hfake ↦ absurd hfake (h.ratings r hr)
  votes := fun v hv hfake ↦ absurd hfake (h.votes v hv)
  upvotes := fun u hu hfake ↦ absurd hfake (h.upvotes u hu)
  account := hreal
  ownCreators := by
    intro c hc hown
    have hmem : (if c.userId = fake then { c with userId := real } else c) ∈
      (recredited d fake real).creators := mem_recredited hc
    rwa [if_neg (fun hfake ↦ h.ne (hfake.symm.trans hown))] at hmem
  ownGuides := fun _ hg _ ↦ hg
  ownCompletions := fun _ hc _ ↦ hc
  ownRatings := fun _ hr _ ↦ hr
  ownVotes := fun _ hv _ ↦ hv
  ownUpvotes := fun _ hu _ ↦ hu
  ownFlags := fun _ hf _ ↦ hf
  ownReferences := fun _ hr _ ↦ hr

/-- And the deletion after it takes nothing of the real user's. -/
theorem OnlyCredits.merged_cascade (h : OnlyCredits d fake real) (hreal : real ∈ d.users)
    (hfake : fake ∈ d.users) : Merged d fake real ((recredited d fake real).cascade fake) := by
  have hkeep := h.merged_recredited hreal
  have hne : real ≠ fake := h.ne.symm
  have hruns : ∀ p, (recredited d fake real).ofRuns fake p = false := by
    intro p
    rw [UsersDb.ofRuns, List.any_eq_false]
    intro c hc
    simp [h.completions c hc]
  constructor
  case creators =>
    intro c hc hf
    exact List.mem_filter.mpr ⟨hkeep.creators c hc hf, decide_eq_true hne⟩
  case guides => exact fun g hg hf ↦ absurd hf (h.guides g hg)
  case completions => exact fun c hc hf ↦ absurd hf (h.completions c hc)
  case ratings => exact fun r hr hf ↦ absurd hf (h.ratings r hr)
  case votes => exact fun v hv hf ↦ absurd hf (h.votes v hv)
  case upvotes => exact fun u hu hf ↦ absurd hf (h.upvotes u hu)
  case account => exact List.mem_filter.mpr ⟨hreal, decide_eq_true hne⟩
  case ownCreators =>
    intro c hc hown
    exact List.mem_filter.mpr ⟨hkeep.ownCreators c hc hown, decide_eq_true (hown ▸ hne)⟩
  case ownGuides => exact fun g hg _ ↦ Table.mem_delete.mpr ⟨hg, decide_eq_false (h.guides g hg)⟩
  case ownCompletions => exact fun c hc _ ↦ Table.mem_delete.mpr ⟨hc, decide_eq_false (h.completions c hc)⟩
  case ownRatings => exact fun r hr _ ↦ Table.mem_delete.mpr ⟨hr, decide_eq_false (h.ratings r hr)⟩
  case ownVotes => exact fun v hv _ ↦ Table.mem_delete.mpr ⟨hv, decide_eq_false (h.votes v hv)⟩
  case ownUpvotes =>
    intro u hu _
    refine Table.mem_delete.mpr ⟨hu, ?_⟩
    rw [decide_eq_false (h.upvotes u hu), hruns]
    rfl
  case ownFlags =>
    intro f hf hown
    obtain ⟨hflagged, hflagging⟩ := h.flags hfake f hf hown
    refine Table.mem_delete.mpr ⟨hf, ?_⟩
    rw [decide_eq_false hflagged, decide_eq_false hflagging, hruns]
    rfl
  case ownReferences =>
    intro r hr hown
    exact List.mem_filter.mpr ⟨hr, decide_eq_true (hown ▸ hne)⟩

/-- A merge loses nothing exactly when it is refused, or when the fake user has nothing but
credits and is another user. -/
theorem losesNothing_iff : LosesNothing d fake real ↔ Refused d fake real ∨ OnlyCredits d fake real := by
  by_cases hrefused : Refused d fake real
  · obtain ⟨e, he⟩ := linkFakeMember_of_refused hrefused
    refine iff_of_true (fun d' hok ↦ ?_) (.inl hrefused)
    rw [he] at hok
    cases hok
  · rw [or_iff_right hrefused]
    have hok := linkFakeMember_of_not_refused hrefused
    have hreal : real ∈ d.users := by
      by_contra hreal
      exact hrefused (.inl hreal)
    constructor
    · intro hloses
      have hmerged := hloses _ hok
      by_cases hfake : fake ∈ d.users
      · rw [if_pos hfake] at hmerged
        apply hmerged.onlyCredits (shrinks_cascade d fake real)
        · rintro rfl
          exact (of_decide_eq_true (List.mem_filter.mp hmerged.account).2) rfl
        · intro _ f hf
          have hkept := (List.mem_filter.mp hf).2
          simp only [Bool.not_or, Bool.and_eq_true, Bool.not_eq_true', decide_eq_false_iff_not] at hkept
          exact ⟨hkept.1.1, hkept.1.2⟩
      · rw [if_neg hfake] at hmerged
        apply hmerged.onlyCredits (shrinks_recredited d fake real)
        · rintro rfl
          exact hfake hreal
        · exact fun hfake' ↦ absurd hfake' hfake
    · intro honly d' hd'
      rw [hok] at hd'
      cases hd'
      split
      · rename_i hfake
        exact honly.merged_cascade hreal hfake
      · exact honly.merged_recredited hreal

/-- A fake member who is the primary creator of a map that was created with a guide. -/
def guided : UsersDb where
  users := [1, 200000000]
  creators := [{ mapId := 1, userId := 1, isPrimary := true }]
  guides := Table.empty.insert fun id ↦ { id, mapId := 1, url := "v", userId := some 1 }

/-- The guide is deleted with the fake user. -/
theorem guided_not_losesNothing : ¬ LosesNothing guided 1 200000000 := by
  intro hloses
  have hmerged := hloses _ (linkFakeMember_of_not_refused (by
    simp only [Refused, not_or, not_and]
    refine ⟨?_, ?_, ?_⟩ <;> decide))
  rw [if_pos (by decide)] at hmerged
  have hguide := hmerged.guides _ (List.mem_singleton_self _) rfl
  revert hguide
  decide

end Merge

end Genjishimada.Users
