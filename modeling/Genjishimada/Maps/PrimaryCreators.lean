import Genjishimada.Maps.Creation
import Genjishimada.Maps.EditResolution
import Genjishimada.Users.Merge

/-!
# One primary creator

`maps.creators` says that there can only be one primary creator, and no constraint does.  Of the
credits alone, a call replaces the list of one map or gives those of one user to another.  A list is
stored as it is sent, so that the rule is kept as long as each list that is sent has one primary
creator and no account is merged into itself.
-/

namespace Genjishimada.Maps

open Library Sdk Repository Services Services.MapsService

/-! ## The credits of the maps -/

/-- A list of creators has exactly one primary. -/
def OnePrimary (creators : List Creator) : Prop := ∃! c, c ∈ creators ∧ c.isPrimary = true

/-- A list of creators has no two primaries. -/
def NoTwoPrimaries (creators : List Creator) : Prop :=
  ∀ c ∈ creators, ∀ c' ∈ creators, c.isPrimary = true → c'.isPrimary = true → c = c'

/-- What a call does to the credits of the maps. -/
inductive CreditChange where
  | /-- The list of a map is replaced. -/
    list (mapId : Nat) (creators : List Creator)
  | /-- The credits of one user go to another, and what is left of them is deleted. -/
    merge (fake real : Nat)

/-- A list of creators, after the merge of two users. -/
def mergedCreators (fake real : Nat) (creators : List Creator) : List Creator :=
  (creators.map fun c ↦ if c.id = fake then { c with id := real } else c).filter (·.id ≠ fake)

/-- The credits after a change. -/
def CreditChange.apply (credits : Nat → List Creator) : CreditChange → Nat → List Creator
  | .list mapId creators => Function.update credits mapId creators
  | .merge fake real => fun mapId ↦ mergedCreators fake real (credits mapId)

/-- The maps whose lists a change has replaced. -/
def CreditChange.listed : CreditChange → List Nat
  | .list mapId _ => [mapId]
  | .merge _ _ => []

/-- No map has two primary creators, and those with a list that was sent have one. -/
structure CreditsRight (credits : Nat → List Creator) (listed : List Nat) : Prop where
  atMostOne : ∀ mapId, NoTwoPrimaries (credits mapId)
  exactlyOne : ∀ mapId ∈ listed, OnePrimary (credits mapId)

/-- The list has one primary creator; no primary creator is merged into themselves. -/
def CreditChange.Keeps (credits : Nat → List Creator) (listed : List Nat) : CreditChange → Prop
  | .list _ creators => OnePrimary creators
  | .merge fake real => fake = real → ∀ mapId ∈ listed, ∀ c ∈ credits mapId,
      c.isPrimary = true → c.id ≠ fake

section Credits

variable {credits credits' : Nat → List Creator} {listed : List Nat} {creators creators' : List Creator}
  {fake real : Nat}

theorem OnePrimary.noTwo (h : OnePrimary creators) : NoTwoPrimaries creators := by
  intro c hc c' hc' hp hp'
  exact h.unique ⟨hc, hp⟩ ⟨hc', hp'⟩

theorem OnePrimary.congr (h : OnePrimary creators) (hmem : ∀ c, c ∈ creators' ↔ c ∈ creators) :
    OnePrimary creators' := by
  obtain ⟨c, ⟨hc, hp⟩, hunique⟩ := h
  exact ⟨c, ⟨(hmem c).mpr hc, hp⟩, fun c' ⟨hc', hp'⟩ ↦ hunique c' ⟨(hmem c').mp hc', hp'⟩⟩

theorem NoTwoPrimaries.congr (h : NoTwoPrimaries creators)
    (hmem : ∀ c, c ∈ creators' ↔ c ∈ creators) : NoTwoPrimaries creators' :=
  fun c hc c' hc' ↦ h c ((hmem c).mp hc) c' ((hmem c').mp hc')

/-- The rule does not depend on the order of a list. -/
theorem CreditsRight.congr (h : CreditsRight credits listed)
    (hmem : ∀ mapId c, c ∈ credits' mapId ↔ c ∈ credits mapId) : CreditsRight credits' listed :=
  ⟨fun mapId ↦ (h.atMostOne mapId).congr (hmem mapId),
    fun mapId hlisted ↦ (h.exactlyOne mapId hlisted).congr (hmem mapId)⟩

/-- A creator after a merge was one before, perhaps as the other user. -/
theorem mem_mergedCreators {c : Creator} :
    c ∈ mergedCreators fake real creators ↔
      c.id ≠ fake ∧ (c ∈ creators ∨ c.id = real ∧ { c with id := fake } ∈ creators) := by
  simp only [mergedCreators, List.mem_filter, List.mem_map, decide_eq_true_eq]
  constructor
  · rintro ⟨⟨c₀, hc₀, rfl⟩, hid⟩
    refine ⟨hid, ?_⟩
    split_ifs at hid ⊢ with hfake
    · right
      refine ⟨rfl, ?_⟩
      subst hfake
      exact hc₀
    · exact .inl hc₀
  · rintro ⟨hid, hc | ⟨rfl, hc⟩⟩
    · exact ⟨⟨c, hc, if_neg hid⟩, hid⟩
    · exact ⟨⟨_, hc, if_pos rfl⟩, hid⟩

/-- No merge makes a second primary creator. -/
theorem NoTwoPrimaries.merged (h : NoTwoPrimaries creators) (fake real : Nat) :
    NoTwoPrimaries (mergedCreators fake real creators) := by
  intro c hc c' hc' hp hp'
  obtain ⟨hid, hc⟩ := mem_mergedCreators.mp hc
  obtain ⟨hid', hc'⟩ := mem_mergedCreators.mp hc'
  rcases hc with hc | ⟨hreal, hc⟩ <;> rcases hc' with hc' | ⟨hreal', hc'⟩
  · exact h c hc c' hc' hp hp'
  · exact absurd (congrArg Creator.id (h c hc _ hc' hp hp')) hid
  · exact absurd (congrArg Creator.id (h _ hc c' hc' hp hp')).symm hid'
  · have hprimary : c.isPrimary = c'.isPrimary := hp.trans hp'.symm
    cases c
    cases c'
    simp_all

/-- The primary creator stays one, unless they are merged into themselves. -/
theorem onePrimary_merged_iff (h : OnePrimary creators) :
    OnePrimary (mergedCreators fake real creators) ↔
      (fake = real → ∀ c ∈ creators, c.isPrimary = true → c.id ≠ fake) := by
  constructor
  · rintro ⟨c, ⟨hc, hp⟩, -⟩ rfl c' hc' hp'
    obtain ⟨hid, hc | ⟨hreal, -⟩⟩ := mem_mergedCreators.mp hc
    · rwa [h.unique ⟨hc', hp'⟩ ⟨hc, hp⟩]
    · exact absurd hreal hid
  · intro hself
    obtain ⟨c, hc, hp⟩ : ∃ c, c ∈ mergedCreators fake real creators ∧ c.isPrimary = true := by
      obtain ⟨c, ⟨hc, hp⟩, -⟩ := h
      by_cases hfake : c.id = fake
      · have hne : real ≠ fake := fun hreal ↦ hself hreal.symm c hc hp hfake
        refine ⟨{ c with id := real }, mem_mergedCreators.mpr ⟨hne, .inr ⟨rfl, ?_⟩⟩, hp⟩
        subst hfake
        exact hc
      · exact ⟨c, mem_mergedCreators.mpr ⟨hfake, .inl hc⟩, hp⟩
    exact ⟨c, ⟨hc, hp⟩, fun c' ⟨hc', hp'⟩ ↦ h.noTwo.merged fake real c' hc' c hc hp' hp⟩

/-- A change keeps the rule exactly on its condition. -/
theorem CreditsRight.apply_iff (h : CreditsRight credits listed) (change : CreditChange) :
    CreditsRight (change.apply credits) (change.listed ++ listed) ↔ change.Keeps credits listed := by
  cases change with
  | list mapId creators =>
      have hself : (CreditChange.list mapId creators).apply credits mapId = creators :=
        Function.update_self ..
      constructor
      · intro hright
        have hone := hright.exactlyOne mapId (List.mem_append_left _ (List.mem_singleton_self _))
        rwa [hself] at hone
      · intro hone
        have hlist (P : List Creator → Prop) (id : Nat) (hnew : P creators) (hold : P (credits id)) :
            P ((CreditChange.list mapId creators).apply credits id) := by
          by_cases hid : id = mapId
          · subst hid
            rwa [hself]
          · rwa [CreditChange.apply, Function.update_of_ne hid]
        refine ⟨fun id ↦ hlist _ id hone.noTwo (h.atMostOne id), fun id hid ↦ ?_⟩
        by_cases hnew : id = mapId
        · subst hnew
          rwa [hself]
        · rcases List.mem_append.mp hid with hid | hid
          · exact absurd (List.mem_singleton.mp hid) hnew
          · exact hlist _ id hone (h.exactlyOne id hid)
  | merge fake real =>
      constructor
      · intro hright hself mapId hlisted
        exact (onePrimary_merged_iff (h.exactlyOne mapId hlisted)).mp
          (hright.exactlyOne mapId hlisted) hself
      · intro hkeeps
        refine ⟨fun mapId ↦ (h.atMostOne mapId).merged fake real, fun mapId hlisted ↦ ?_⟩
        exact (onePrimary_merged_iff (h.exactlyOne mapId hlisted)).mpr
          fun hself ↦ hkeeps hself mapId hlisted

end Credits

/-! ## The calls -/

/-- The rows of `maps.creators` of each map. -/
def creditsOf (t : MapTables) (mapId : Nat) : List Creator := (t.describe mapId).creators

/-- The users and their credits, as the tables of maps have them. -/
structure SameCredits (d : UsersDb) (t : MapTables) : Prop where
  users : ∀ u, u ∈ d.users ↔ u ∈ t.users
  creators : ∀ mapId c, c ∈ creditsOf t mapId ↔
    { mapId, userId := c.id, isPrimary := c.isPrimary } ∈ d.creators

/-- What is committed, and the maps that were created or patched with a list of creators. -/
structure CreditState where
  site : EditState := {}
  listed : List Nat := []

/-- A call that writes `maps.creators`. -/
inductive CreditCall where
  | create (faults : CreateFaults) (data : MapsService.MapCreateRequest)
  | update (faults : PatchFaults) (code : String) (data : MapsService.MapPatchRequest)
  | accept (faults : EditFaults) (editId resolvedBy : Nat) (reason : Option String)
      (toPlaytest : Bool)
  | link (fake real : Nat)

/-- The map of a code, if a list of creators is sent for it. -/
def listedBy (t : MapTables) (code : Option String) (creators : Option (List Creator)) : List Nat :=
  if creators.isSome then (t.base.mapOfCode code).toList.map (·.id) else []

/-- The call returns normally, and leaves this. -/
inductive CreditReturns (textLe : String → String → Bool) :
    CreditState → CreditCall → CreditState → Prop
  | create {s : CreditState} {faults : CreateFaults} {data : MapsService.MapCreateRequest}
      {c c' : CreationState} {b : Bool} :
      c.committed = s.site.tables → MapsService.createMap faults data c = .ok b c' →
      CreditReturns textLe s (.create faults data)
        { site := { s.site with tables := c'.committed }
          listed := [s.site.tables.base.db.maps.nextId] ++ s.listed }
  | update {s : CreditState} {faults : PatchFaults} {code : String}
      {data : MapsService.MapPatchRequest} {t : MapTables} {r : MapResponse × MapResponse} :
      MapsService.updateMap textLe faults code data s.site.tables = (t, .ok r) →
      CreditReturns textLe s (.update faults code data)
        { site := { s.site with tables := t }
          listed := listedBy s.site.tables (some code) data.creators ++ s.listed }
  | accept {s : CreditState} {faults : EditFaults} {editId resolvedBy : Nat}
      {reason : Option String} {toPlaytest : Bool} {edit : MapEdit} {site : EditState} :
      s.site.requests.get? editId = some edit →
      MapsService.resolveEditRequest textLe faults editId true resolvedBy reason toPlaytest s.site =
        .ok () site →
      CreditReturns textLe s (.accept faults editId resolvedBy reason toPlaytest)
        { site
          listed := listedBy s.site.tables edit.code edit.proposedChanges.creators ++ s.listed }
  | link {s : CreditState} {fake real : Nat} {d d' : UsersDb} {t : MapTables} :
      SameCredits d s.site.tables → Users.linkFakeMember fake real d = .ok d' → SameCredits d' t →
      t.base.db.maps = s.site.tables.base.db.maps →
      CreditReturns textLe s (.link fake real) { s with site := { s.site with tables := t } }

/-- The list that a call sends has one primary creator; no account is merged into itself that is
the primary creator of a listed map. -/
def CreditCall.Keeps (s : CreditState) : CreditCall → Prop
  | .create _ data => OnePrimary data.creators
  | .update _ _ data => ∀ creators, data.creators = some creators → OnePrimary creators
  | .accept _ editId _ _ _ => ∀ edit, s.site.requests.get? editId = some edit →
      ∀ creators, edit.proposedChanges.creators = some creators → OnePrimary creators
  | .link fake real => fake = real → ∀ mapId ∈ s.listed, ∀ c ∈ creditsOf s.site.tables mapId,
      c.isPrimary = true → c.id ≠ fake

/-- The rule, in a state. -/
def CreatorsRight (s : CreditState) : Prop := CreditsRight (creditsOf s.site.tables) s.listed

section Calls

variable {textLe : String → String → Bool} {s s' : CreditState} {l : CreditCall} {t t' : MapTables}
  {code : String} {m : CoreMap}

theorem creditsOf_created (data : MapsService.MapCreateRequest) (t : MapTables) :
    creditsOf (created data t) =
      Function.update (creditsOf t) t.base.db.maps.nextId data.creators := by
  funext mapId
  by_cases hid : mapId = t.base.db.maps.nextId
  · subst hid
    rw [creditsOf, describe_created, Function.update_self]
    rfl
  · rw [creditsOf, describe_created_of_ne data t hid, Function.update_of_ne hid, creditsOf]

theorem creditsOf_patched (code : String) (m : CoreMap) (data : MapsService.MapPatchRequest)
    (t : MapTables) :
    creditsOf (patched code m data t) =
      Function.update (creditsOf t) m.id (data.creators.getD (creditsOf t m.id)) := by
  funext mapId
  show ((t.redescribe m.id (patchedDescription t.names data)).describe mapId).creators = _
  by_cases hid : mapId = m.id
  · subst hid
    rw [describe_redescribe, Function.update_self]
    rfl
  · rw [Function.update_of_ne hid]
    exact congrArg MapDescription.creators (Function.update_of_ne hid _ _)

theorem mem_creators_recredited {d : UsersDb} {fake real : Nat} {row : MapCreator} :
    row ∈ (Users.recredited d fake real).creators ↔
      row.userId ≠ fake ∧ row ∈ d.creators ∨
        row.userId = real ∧ { row with userId := fake } ∈ d.creators := by
  simp only [Users.recredited, List.mem_map]
  constructor
  · rintro ⟨row₀, hrow, rfl⟩
    split_ifs with hfake
    · right
      refine ⟨rfl, ?_⟩
      subst hfake
      exact hrow
    · exact .inl ⟨hfake, hrow⟩
  · rintro (⟨hne, hrow⟩ | ⟨rfl, hrow⟩)
    · exact ⟨row, hrow, if_neg hne⟩
    · exact ⟨_, hrow, if_pos rfl⟩

/-- Merging two users moves their credits. -/
theorem mem_creditsOf_linked {d d' : UsersDb} {fake real : Nat} (hd : SameCredits d t)
    (h : Users.linkFakeMember fake real d = .ok d') (hd' : SameCredits d' t') (mapId : Nat)
    (c : Creator) :
    c ∈ creditsOf t' mapId ↔ c ∈ mergedCreators fake real (creditsOf t mapId) := by
  have hreturns : ¬Users.Refused d fake real := by
    intro hrefused
    obtain ⟨e, he⟩ := Users.linkFakeMember_of_refused hrefused
    rw [he] at h
    cases h
  rw [Users.linkFakeMember_of_not_refused hreturns, Except.ok.injEq] at h
  have hrow (row : MapCreator) : row ∈ d'.creators ↔
      row.userId ≠ fake ∧ row ∈ (Users.recredited d fake real).creators := by
    rw [← h]
    split_ifs with hfake
    · rw [UsersDb.cascade, List.mem_filter, decide_eq_true_eq, and_comm]
    · -- the real user is one, and not the fake one
      have hreal : real ≠ fake := by
        rintro rfl
        exact hreturns (.inl hfake)
      refine ⟨fun hrow ↦ ⟨?_, hrow⟩, And.right⟩
      rcases mem_creators_recredited.mp hrow with ⟨hne, -⟩ | ⟨hid, -⟩
      · exact hne
      · rwa [hid]
  rw [hd'.creators, mem_mergedCreators, hd.creators, hd.creators, hrow, mem_creators_recredited]
  refine and_congr_right fun hne ↦ ?_
  rw [and_iff_right hne]

/-- Accepted changes replace the list, if they have one. -/
theorem creditsOf_applyChanges {faults : EditFaults} {r : MapResponse} {edit : MapEdit}
    {s s' : EditState} (h : MapsService.applyChanges textLe faults code r edit s = .ok () s')
    (hm : s.tables.base.mapOfCode (some code) = some m) :
    creditsOf s'.tables = Function.update (creditsOf s.tables) m.id
      (edit.proposedChanges.creators.getD (creditsOf s.tables m.id)) := by
  obtain ⟨m₁, hm₁, -, htables⟩ := tables_applyChanges h hm
  have hid := id_mapOfCode_withArchiveStatus code edit.proposedChanges.archived s.tables
  rw [hm₁, hm, Option.map_some, Option.map_some, Option.some.injEq] at hid
  have hsame : creditsOf (withArchiveStatus code edit.proposedChanges.archived s.tables) =
      creditsOf s.tables := by
    cases edit.proposedChanges.archived <;> rfl
  rw [htables, creditsOf_patched, hsame, hid]
  rfl

/-- And the acceptance as a whole. -/
theorem creditsOf_resolveEditRequest {faults : EditFaults} {editId resolvedBy : Nat}
    {reason : Option String} {toPlaytest : Bool} {edit : MapEdit} {s s' : EditState}
    (hedit : s.requests.get? editId = some edit)
    (h : MapsService.resolveEditRequest textLe faults editId true resolvedBy reason toPlaytest s = .ok () s') :
    ∃ m, s.tables.base.mapOfCode edit.code = some m ∧
      creditsOf s'.tables = Function.update (creditsOf s.tables) m.id
        (edit.proposedChanges.creators.getD (creditsOf s.tables m.id)) := by
  rw [resolveEditRequest_of_some hedit] at h
  obtain ⟨_, s₁, haccept, hfinish⟩ := exists_of_bind_ok h
  rcases acceptChanges_cases textLe faults edit s with
    ⟨code, m, r, horiginal, happly⟩ | ⟨-, e, herror⟩
  · rw [happly] at haccept
    have hfinished : creditsOf s'.tables = creditsOf s₁.tables := by
      unfold creditsOf
      rw [finish_describe hfinish]
    exact ⟨m, horiginal.named ▸ horiginal.map,
      hfinished.trans (creditsOf_applyChanges haccept horiginal.map)⟩
  · rw [herror] at haccept
    cases haccept

/-- An update of no list is none. -/
theorem patched_listed {credits credits' : Nat → List Creator} {listed : List Nat}
    (h : CreditsRight credits listed) {t : MapTables} {code : Option String} {m : CoreMap}
    {creators : Option (List Creator)} (hm : t.base.mapOfCode code = some m)
    (hcredits : credits' = Function.update credits m.id (creators.getD (credits m.id))) :
    CreditsRight credits' (listedBy t code creators ++ listed) ↔
      ∀ creators', creators = some creators' → OnePrimary creators' := by
  subst hcredits
  cases creators with
  | none =>
      rw [Option.getD_none, Function.update_eq_self]
      exact iff_of_true h nofun
  | some creators =>
      have hlisted : listedBy t code (some creators) = [m.id] := by
        rw [listedBy, hm]
        rfl
      rw [hlisted]
      refine (h.apply_iff (.list m.id creators)).trans ⟨?_, fun hall ↦ hall creators rfl⟩
      rintro hone _ ⟨⟩
      exact hone

/-- A call that returns keeps the rule exactly on its condition. -/
theorem CreditReturns.creatorsRight_iff (hstep : CreditReturns textLe s l s')
    (h : CreatorsRight s) : CreatorsRight s' ↔ l.Keeps s := by
  cases hstep with
  | create hcommitted hreturns =>
      rw [CreatorsRight, committed_of_createMap_ok hreturns, hcommitted, creditsOf_created]
      exact CreditsRight.apply_iff h (.list _ _)
  | update hreturns =>
      obtain ⟨m, hm, -, rfl⟩ := updateMap_eq_ok hreturns
      exact patched_listed h hm (creditsOf_patched _ m _ _)
  | accept hedit hreturns =>
      obtain ⟨m, hm, hcredits⟩ := creditsOf_resolveEditRequest hedit hreturns
      refine (patched_listed h hm hcredits).trans ⟨fun hone edit' hedit' ↦ ?_, fun hall ↦ hall _ hedit⟩
      rw [hedit, Option.some.injEq] at hedit'
      rwa [← hedit']
  | link hd hreturns hd' hmaps =>
      rename_i fake real d d' t
      have hmem := mem_creditsOf_linked hd hreturns hd'
      have hmerge := h.apply_iff (.merge fake real)
      refine Iff.trans ⟨fun hright ↦ ?_, fun hright ↦ ?_⟩ hmerge
      · exact CreditsRight.congr hright fun mapId c ↦ (hmem mapId c).symm
      · exact CreditsRight.congr hright hmem

/-- In every run of calls that return, the rule holds in each state exactly if it holds at first,
each list that is sent has one primary creator and no account is merged into itself that is the
primary creator of a listed map. -/
theorem creatorsRight_run_iff (textLe : String → String → Bool) (s s' : CreditState)
    (ls : List CreditCall) :
    (CreatorsRight s ∧ Run (fun s l s' ↦ CreditReturns textLe s l s' ∧ CreatorsRight s') s ls s') ↔
      CreatorsRight s ∧ Run (Guarded (fun s l ↦ l.Keeps s) (CreditReturns textLe)) s ls s' := by
  refine and_congr_right fun h ↦ Run.congr CreatorsRight ?_ (fun _ _ _ _ hstep ↦ hstep.2) h
  rintro s l s' h
  constructor
  · rintro ⟨hreturns, hright⟩
    exact ⟨(hreturns.creatorsRight_iff h).mp hright, hreturns⟩
  · rintro ⟨hkeeps, hreturns⟩
    exact ⟨hreturns, (hreturns.creatorsRight_iff h).mpr hkeeps⟩

end Calls

/-- Two users, and no maps. -/
def twoUsers : MapTables where
  users := [7, 8]

/-- A map with two primary creators. -/
def twoPrimaries : MapsService.MapCreateRequest where
  code := "AAAAA"
  mapName := "Hanamura"
  category := "Classic"
  difficulty := .easy
  creators := [⟨7, true⟩, ⟨8, true⟩]

/-- It is created. -/
theorem twoPrimaries_not_right :
    ∃ s', CreatorsRight { site := { tables := twoUsers } } ∧
      CreditReturns (· ≤ ·) { site := { tables := twoUsers } } (.create {} twoPrimaries) s' ∧
        ¬CreatorsRight s' := by
  have hearly : earlyRefusal twoPrimaries twoUsers = none := by decide
  have hlate : lateRefusal twoPrimaries = none := by decide
  have hreturns : ∃ b c', MapsService.createMap {} twoPrimaries
      { committed := twoUsers, tables := twoUsers } = .ok b c' :=
    (createMap_ok_iff hearly hlate rfl).mpr ⟨rfl, fun _ ↦ rfl⟩
  obtain ⟨b, c', hcreated⟩ := hreturns
  have hright : CreatorsRight { site := { tables := twoUsers } } :=
    ⟨fun _ _ hc ↦ absurd hc List.not_mem_nil, fun _ hlisted ↦ absurd hlisted List.not_mem_nil⟩
  have hcall : CreditReturns (· ≤ ·) { site := { tables := twoUsers } } (.create {} twoPrimaries) _ :=
    .create rfl hcreated
  refine ⟨_, hright, hcall, fun h ↦ ?_⟩
  have hone : OnePrimary [⟨7, true⟩, ⟨8, true⟩] := (hcall.creatorsRight_iff hright).mp h
  have hsame := hone.noTwo ⟨7, true⟩ (by simp) ⟨8, true⟩ (by simp) rfl rfl
  cases hsame

end Genjishimada.Maps
